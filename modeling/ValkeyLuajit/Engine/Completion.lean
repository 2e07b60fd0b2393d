import ValkeyLuajit.Engine.Entry

/-!
# Which library a call loads

The events of a call show whether top-level code of a library was entered and ran to its
end. A call completes the code of its function's library and marks that library, or it
completes nothing and leaves the marks alone.
-/

namespace ValkeyLuajit

open Lua

/-- The top-level code that was entered and has run to its end, in order. -/
def libraryCompletions : List Event → List FuncRef
  | [] => []
  | .entered .library callee _ :: rest =>
      if .completed callee ∈ rest then callee :: libraryCompletions rest
      else libraryCompletions rest
  | _ :: rest => libraryCompletions rest

/-- The event is about the loading of a library. -/
def Event.OfLoad : Event → Prop
  | .entered .library _ _ | .completed _ => True
  | _ => False

section Events

variable {trace events rest : List Event} {callee : FuncRef} {arguments : List Value}

/-- Without an end nothing is complete. -/
theorem libraryCompletions_unended (unended : ∀ function, .completed function ∉ trace) :
    libraryCompletions trace = [] := by
  fun_induction libraryCompletions trace with
  | case1 => rfl
  | case2 callee arguments rest ended =>
      exact absurd (List.mem_cons_of_mem _ ended) (unended callee)
  | case3 callee arguments rest _ inductionHypothesis =>
      exact inductionHypothesis fun function member =>
        unended function (List.mem_cons_of_mem _ member)
  | case4 event rest _ inductionHypothesis =>
      exact inductionHypothesis fun function member =>
        unended function (List.mem_cons_of_mem _ member)

/-- What was never entered is not complete either. -/
theorem libraryCompletions_unentered
    (unentered : ∀ function arguments, .entered .library function arguments ∉ trace) :
    libraryCompletions trace = [] := by
  fun_induction libraryCompletions trace with
  | case1 => rfl
  | case2 callee arguments => exact absurd List.mem_cons_self (unentered callee arguments)
  | case3 callee arguments => exact absurd List.mem_cons_self (unentered callee arguments)
  | case4 event rest _ inductionHypothesis =>
      exact inductionHypothesis fun function arguments member =>
        unentered function arguments (List.mem_cons_of_mem _ member)

/-- Code that is entered and runs to its end completes once. -/
theorem libraryCompletions_whole (inside : ∀ event ∈ events, ¬ event.OfLoad)
    (later : ∀ event ∈ rest, ¬ event.OfLoad) :
    libraryCompletions
      (.entered .library callee arguments :: (events ++ .completed callee :: rest)) = [callee] := by
  have others : libraryCompletions (events ++ .completed callee :: rest) = [] := by
    apply libraryCompletions_unentered
    intro function arguments member
    rcases List.mem_append.mp member with before | after
    · exact inside _ before trivial
    · rcases List.mem_cons.mp after with same | after
      · cases same
      · exact later _ after trivial
  rw [libraryCompletions, if_pos (by simp), others]

end Events

/-- No top-level code completes in between, and the marks of libraries are as they were. -/
structure CompletesNone (before after : Core CallHost) : Prop where
  trace : ∃ events, after.host.trace = before.host.trace ++ events ∧
    ∀ function, .completed function ∉ events
  loaded : ∀ other, after.lua.loaded other = before.lua.loaded other

/-- Nothing in between is about the loading of a library. -/
structure LoadsNone (before after : Core CallHost) : Prop where
  trace : ∃ events, after.host.trace = before.host.trace ++ events ∧
    ∀ event ∈ events, ¬ event.OfLoad
  loaded : ∀ other, after.lua.loaded other = before.lua.loaded other

/-- In between, this top-level code is entered and completes, and the library with this id is
marked, which it was not. -/
structure CompletesLoad (code : Bytes) (libId : Nat) (before after : Core CallHost) : Prop where
  trace : ∃ events rest, after.host.trace = before.host.trace ++
      .entered .library (.chunk code) [] :: (events ++ .completed (.chunk code) :: rest) ∧
    (∀ event ∈ events, ¬ event.OfLoad) ∧ ∀ event ∈ rest, ¬ event.OfLoad
  fresh : before.lua.loaded libId = false
  loaded : ∀ other, after.lua.loaded other = (before.lua.loaded other || decide (other = libId))

section Steps

variable {rt : Runtime} {ctx : EngineCtx} {function : LuajitFunction} {type : SubsystemType}
  {load body : ScriptRun} {before mid after : Core CallHost} {kind : CodeKind} {code : Bytes}
  {libId : Nat}

theorem LoadsNone.trans (first : LoadsNone before mid) (second : LoadsNone mid after) :
    LoadsNone before after := by
  obtain ⟨events, early, quiet⟩ := first.trace
  obtain ⟨rest, late, still⟩ := second.trace
  refine ⟨⟨events ++ rest, by rw [late, early, List.append_assoc], ?_⟩,
    fun other => (second.loaded other).trans (first.loaded other)⟩
  intro event member
  exact (List.mem_append.mp member).elim (quiet event) (still event)

theorem CompletesNone.trans (first : CompletesNone before mid) (second : CompletesNone mid after) :
    CompletesNone before after := by
  obtain ⟨events, early, quiet⟩ := first.trace
  obtain ⟨rest, late, still⟩ := second.trace
  refine ⟨⟨events ++ rest, by rw [late, early, List.append_assoc], ?_⟩,
    fun other => (second.loaded other).trans (first.loaded other)⟩
  intro function member
  exact (List.mem_append.mp member).elim (quiet function) (still function)

/-- What is not about loading completes nothing. -/
theorem LoadsNone.completesNone (none : LoadsNone before after) : CompletesNone before after := by
  obtain ⟨events, trace, quiet⟩ := none.trace
  exact ⟨⟨events, trace, fun function member => quiet _ member trivial⟩, none.loaded⟩

theorem CompletesLoad.trans (first : CompletesLoad code libId before mid)
    (second : LoadsNone mid after) : CompletesLoad code libId before after := by
  obtain ⟨events, rest, early, inside, later⟩ := first.trace
  obtain ⟨more, late, still⟩ := second.trace
  refine ⟨⟨events, rest ++ more, by simp [late, early], inside, ?_⟩, first.fresh,
    fun other => (second.loaded other).trans (first.loaded other)⟩
  intro event member
  exact (List.mem_append.mp member).elim (later event) (still event)

/-- A change of the state that leaves the marks alone. -/
theorem LoadsNone.of_map {change : State → State}
    (same : ∀ other, (change before.lua).loaded other = before.lua.loaded other) :
    LoadsNone before (before.map change) := ⟨⟨[], by simp [Core.map], by simp⟩, same⟩

theorem LoadsNone.refl (core : Core CallHost) : LoadsNone core core :=
  ⟨⟨[], by simp, by simp⟩, fun _ => rfl⟩

/-- A reply is sent. -/
theorem LoadsNone.sent (core : Core CallHost) (token : Token) :
    LoadsNone core (core.note (.sent token)) :=
  ⟨⟨[.sent token], rfl, by simp [Event.OfLoad]⟩, fun _ => rfl⟩

/-- Scripts load no library. -/
theorem ScriptEffect.loadsNone (effect : ScriptEffect kind before after) :
    LoadsNone before after := by
  obtain ⟨events, trace, observed, -⟩ := effect.trace
  refine ⟨⟨events, trace, fun event member ofLoad => ?_⟩, fun other => ?_⟩
  · have here := observed event member
    cases event with
    | entered => exact here
    | completed => exact here
    | _ => exact ofLoad
  · simp only [State.loaded, effect.hidden _ (show libraryCompiledName ≠ _ by decide)]

/-- Handling values loads none. -/
theorem HandlingEffect.loadsNone (effect : HandlingEffect before after) :
    LoadsNone before after := by
  obtain ⟨tokens, trace⟩ := effect.trace
  refine ⟨⟨_, trace, fun event member => ?_⟩, fun other => ?_⟩
  · obtain ⟨token, -, rfl⟩ := List.mem_map.mp member
    exact id
  · rw [State.loaded, effect.hidden]
    rfl

/-- Code is entered and executes. -/
theorem Executed.trace {state : StateKind} {script : ScriptRun} {callee : FuncRef}
    {arguments : List Value} {outcome : Outcome CallHost (List Value)}
    (executed : Executed rt state kind script callee arguments before outcome) :
    (∃ events, outcome.world.core.host.trace =
        before.host.trace ++ .entered kind callee arguments :: events ∧
      ∀ event ∈ events, ¬ event.OfLoad) ∧
    ∀ other, outcome.world.core.lua.loaded other = before.lua.loaded other := by
  obtain ⟨⟨events, trace, quiet⟩, loaded⟩ := executed.effect.loadsNone
  have entered : (before.enter kind callee arguments).host.trace = before.host.trace ++
      [.entered kind callee arguments, .userCode kind before.lua.hook
        (before.lua.registry registryRunCtxName) before.host.callCtx] := by
    simp [Core.enter, Core.note]
  refine ⟨⟨.userCode kind before.lua.hook (before.lua.registry registryRunCtxName)
    before.host.callCtx :: events, ?_, fun event member => ?_⟩, loaded⟩
  · rw [trace, entered]
    simp
  · rcases List.mem_cons.mp member with rfl | member
    · exact id
    · exact quiet event member

/-- A callback is no top-level code. -/
theorem Executed.loadsNone {state : StateKind} {script : ScriptRun} {callee : FuncRef}
    {arguments : List Value} {outcome : Outcome CallHost (List Value)}
    (executed : Executed rt state .body script callee arguments before outcome) :
    LoadsNone before outcome.world.core := by
  obtain ⟨⟨events, trace, quiet⟩, loaded⟩ := executed.trace
  refine ⟨⟨_, trace, fun event member => ?_⟩, loaded⟩
  rcases List.mem_cons.mp member with rfl | member
  · exact id
  · exact quiet event member

/-- Top-level code that is left early has not completed. -/
theorem Executed.completesNone {state : StateKind} {script : ScriptRun} {callee : FuncRef}
    {arguments : List Value} {outcome : Outcome CallHost (List Value)}
    (executed : Executed rt state kind script callee arguments before outcome) :
    CompletesNone before outcome.world.core := by
  obtain ⟨⟨events, trace, quiet⟩, loaded⟩ := executed.trace
  refine ⟨⟨_, trace, fun function member => ?_⟩, loaded⟩
  rcases List.mem_cons.mp member with same | member
  · cases same
  · exact quiet _ member trivial

/-- Getting a library ready completes its code and marks it, or neither. -/
theorem Readied.completes {lib : LuajitLibrary} {result : Except String Bool}
    (readied : Readied rt lib libId load before result after) :
    CompletesNone before after ∨ CompletesLoad lib.code libId before after := by
  cases readied with
  | already => exact .inl (LoadsNone.refl _).completesNone
  | rejected => exact .inl (LoadsNone.sent _ _).completesNone
  | failed _ _ executed =>
      exact .inl (executed.completesNone.trans (LoadsNone.sent _ _).completesNone)
  | loaded fresh _ executed =>
      obtain ⟨⟨events, trace, quiet⟩, loaded⟩ := executed.trace
      refine .inr ⟨⟨events, [], ?_, quiet, by simp⟩, fresh, fun other => ?_⟩
      · rw [Outcome.world_done] at trace
        change _ ++ [Event.completed (.chunk lib.code)] = _
        rw [trace]
        simp
      · rw [Outcome.world_done] at loaded
        rw [Core.map_lua, State.loaded_mark, Core.note_lua, loaded, Bool.or_comm]
  | aborted _ _ executed => exact .inl executed.completesNone

/-- So does finding a callback: the library is the function's, by its id. -/
theorem Fetched.completes {result : Except String (Option FuncRef)}
    (fetched : Fetched rt ctx function load before result after) :
    CompletesNone before after ∨
      ∃ name libId lib, function.data = .functionRef name libId ∧
        ctx.libraries.lookup libId = some lib ∧ CompletesLoad lib.code libId before after := by
  have library {name : Bytes} {libId : Nat} {lib : LuajitLibrary} {answer : Except String Bool}
      {ready : Core CallHost} (data : function.data = .functionRef name libId)
      (lookup : ctx.libraries.lookup libId = some lib)
      (readied : Readied rt lib libId load before answer ready) (rest : LoadsNone ready after) :
      CompletesNone before after ∨
        ∃ name libId lib, function.data = .functionRef name libId ∧
          ctx.libraries.lookup libId = some lib ∧ CompletesLoad lib.code libId before after := by
    rcases readied.completes with none | completes
    · exact .inl (none.trans rest.completesNone)
    · exact .inr ⟨name, libId, lib, data, lookup, completes.trans rest⟩
  cases fetched with
  | hit => exact .inl (LoadsNone.refl _).completesNone
  | rejected => exact .inl (LoadsNone.sent _ _).completesNone
  | compiled => exact .inl (LoadsNone.of_map fun other => State.loaded_remember other).completesNone
  | missing => exact .inl (LoadsNone.sent _ _).completesNone
  | unready _ data lookup readied => exact library data lookup readied (.refl _)
  | crashed _ data lookup readied => exact library data lookup readied (.refl _)
  | unbound _ data lookup readied => exact library data lookup readied (.sent _ _)
  | bound _ data lookup readied =>
      exact library data lookup readied (.of_map fun other => State.loaded_remember other)

/-- An invocation of a callback loads no library. -/
theorem Invoked.loadsNone {callback : FuncRef} {returns : Bool}
    (invoked : Invoked rt ctx type body callback before returns after) :
    LoadsNone before after := by
  have marks (core : Core CallHost) (pointer : Nat) (other : Nat) :
      (core.lua.withFfi ctx pointer).loaded other = core.lua.loaded other := by
    rw [State.loaded, State.withFfi_hidden]
    rfl
  have armed : LoadsNone before (before.arm ctx type) :=
    ⟨⟨[], by simp [Core.arm, CallHost.begin], by simp⟩, marks before moduleCtxPointer⟩
  cases invoked with
  | unstarted _ handled => exact armed.trans handled.loadsNone
  | aborted handled executed => exact (armed.trans handled.loadsNone).trans executed.loadsNone
  | unreported handled executed reported =>
      exact ((armed.trans handled.loadsNone).trans executed.loadsNone).trans reported.loadsNone
  | @finished begun reported arguments outcome handled executed reports =>
      have cleared : LoadsNone reported (reported.disarm ctx) := by
        refine ⟨⟨[], by simp [Core.disarm], by simp⟩, fun other => ?_⟩
        simp only [State.loaded, Core.disarm, State.withFfi_hidden]
        rfl
      exact (((armed.trans handled.loadsNone).trans executed.loadsNone).trans
        reports.loadsNone).trans cleared

/-- A call completes the code of its function's library and marks it, or completes nothing and
marks nothing. -/
theorem Called.completes {returns : Bool}
    (called : Called rt ctx function type load body before returns after) :
    CompletesNone before after ∨
      ∃ name libId lib, function.data = .functionRef name libId ∧
        ctx.libraries.lookup libId = some lib ∧ CompletesLoad lib.code libId before after := by
  cases called with
  | crashed fetched => exact fetched.completes
  | refused fetched => exact fetched.completes
  | invoked fetched invoked =>
      rcases fetched.completes with none | ⟨name, libId, lib, data, lookup, completes⟩
      · exact .inl (none.trans invoked.loadsNone.completesNone)
      · exact .inr ⟨name, libId, lib, data, lookup, completes.trans invoked.loadsNone⟩

/-- From a start without events, its events show which. -/
theorem Called.completions {returns : Bool} (blank : before.host.trace = [])
    (called : Called rt ctx function type load body before returns after) :
    (libraryCompletions after.host.trace = [] ∧
      ∀ other, after.lua.loaded other = before.lua.loaded other) ∨
    ∃ name libId lib, function.data = .functionRef name libId ∧
      ctx.libraries.lookup libId = some lib ∧ before.lua.loaded libId = false ∧
      libraryCompletions after.host.trace = [.chunk lib.code] ∧
      ∀ other, after.lua.loaded other = (before.lua.loaded other || decide (other = libId)) := by
  rcases called.completes with none | ⟨name, libId, lib, data, lookup, completes⟩
  · obtain ⟨events, trace, unended⟩ := none.trace
    rw [blank, List.nil_append] at trace
    exact .inl ⟨by rw [trace, libraryCompletions_unended unended], none.loaded⟩
  · obtain ⟨events, rest, trace, inside, later⟩ := completes.trace
    rw [blank, List.nil_append] at trace
    refine .inr ⟨name, libId, lib, data, lookup, completes.fresh, ?_, completes.loaded⟩
    rw [trace, libraryCompletions_whole inside later]

end Steps

end ValkeyLuajit
