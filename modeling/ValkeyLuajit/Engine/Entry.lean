import ValkeyLuajit.Engine.Users

/-!
# What code a call enters

A call enters the top-level code of a library when it loads one, and its callback.
Nothing that these do enters anything else, and neither does what the module does
with their values.
-/

namespace ValkeyLuajit

open Lua

section

variable {kind : CodeKind} {before after : Core CallHost} {event : Event}

/-- The event says that code of this kind was entered with this function. -/
def Event.Enters (kind : CodeKind) (callee : FuncRef) : Event → Prop
  | .entered other function _ => other = kind ∧ function = callee
  | _ => False

/-- Code of this kind was entered with this function. -/
def Lua.Core.Entered (core : Core CallHost) (kind : CodeKind) (callee : FuncRef) : Prop :=
  ∃ event ∈ core.host.trace, event.Enters kind callee

variable {other : CodeKind} {callee : FuncRef}

/-- Events that enter nothing make no difference. -/
theorem entered_append {events : List Event}
    (trace : after.host.trace = before.host.trace ++ events)
    (none : ∀ event ∈ events, ¬ event.Enters kind callee) :
    after.Entered kind callee ↔ before.Entered kind callee := by
  constructor
  · rintro ⟨event, member, enters⟩
    rw [trace, List.mem_append] at member
    rcases member with old | new
    · exact ⟨event, old, enters⟩
    · exact absurd enters (none event new)
  · rintro ⟨event, member, enters⟩
    exact ⟨event, by rw [trace]; exact List.mem_append_left _ member, enters⟩

/-- Scripts enter nothing. -/
theorem ScriptEffect.entered_iff (effect : ScriptEffect other before after) :
    after.Entered kind callee ↔ before.Entered kind callee := by
  obtain ⟨events, trace, observed, -⟩ := effect.trace
  refine entered_append trace fun event member enters => ?_
  have here := observed event member
  cases event with
  | entered => exact here
  | _ => exact enters

/-- Handling values enters nothing. -/
theorem HandlingEffect.entered_iff (effect : HandlingEffect before after) :
    after.Entered kind callee ↔ before.Entered kind callee := by
  obtain ⟨tokens, trace⟩ := effect.trace
  refine entered_append trace fun event member enters => ?_
  obtain ⟨token, -, rfl⟩ := List.mem_map.mp member
  exact enters

theorem entered_note_sent_iff {token : Token} :
    (before.note (.sent token)).Entered kind callee ↔ before.Entered kind callee :=
  entered_append rfl (by simp [Event.Enters])

theorem entered_note_completed_iff {function : FuncRef} :
    (before.note (.completed function)).Entered kind callee ↔ before.Entered kind callee :=
  entered_append rfl (by simp [Event.Enters])

theorem entered_enter_iff {function : FuncRef} {arguments : List Value} :
    (before.enter other function arguments).Entered kind callee ↔
      before.Entered kind callee ∨ other = kind ∧ function = callee := by
  simp only [Core.Entered, Core.enter, Core.note, List.append_assoc, List.cons_append,
    List.nil_append, List.mem_append, List.mem_cons, List.not_mem_nil, or_false]
  constructor
  · rintro ⟨event, old | rfl | rfl, enters⟩
    · exact .inl ⟨event, old, enters⟩
    · exact .inr enters
    · exact enters.elim
  · rintro (⟨event, old, enters⟩ | same)
    · exact ⟨event, .inl old, enters⟩
    · exact ⟨_, .inr (.inl rfl), same⟩

@[simp] theorem entered_map_iff {change : State → State} :
    (before.map change).Entered kind callee ↔ before.Entered kind callee := Iff.rfl

variable (kind callee) in
/-- Executing code enters it. -/
theorem Executed.entered_iff {rt : Runtime} {state : StateKind} {script : ScriptRun}
    {function : FuncRef} {arguments : List Value} {outcome : Outcome CallHost (List Value)}
    (executed : Executed rt state other script function arguments before outcome) :
    outcome.world.core.Entered kind callee ↔
      before.Entered kind callee ∨ other = kind ∧ function = callee := by
  rw [executed.effect.entered_iff, entered_enter_iff]

end

section Calls

variable {rt : Runtime} {ctx : EngineCtx} {function : LuajitFunction} {type : SubsystemType}
  {load body : ScriptRun} {before after : Core CallHost} {kind : CodeKind} {callee : FuncRef}

variable (kind callee) in
/-- Getting a library ready enters its text, if it has to be loaded. -/
theorem Readied.entered_iff {lib : LuajitLibrary} {libId : Nat} {result : Except String Bool}
    (readied : Readied rt lib libId load before result after) :
    after.Entered kind callee ↔ before.Entered kind callee ∨
      (before.lua.loaded libId = false ∧ rt.syntaxError lib.code = none) ∧
        .library = kind ∧ .chunk lib.code = callee := by
  cases readied with
  | already loaded => simp [loaded]
  | rejected _ rejected => simp [entered_note_sent_iff, rejected]
  | failed fresh accepted executed =>
      have entered := executed.entered_iff kind callee
      simpa [entered_note_sent_iff, fresh, accepted] using entered
  | loaded fresh accepted executed =>
      have entered := executed.entered_iff kind callee
      simpa [entered_note_completed_iff, fresh, accepted] using entered
  | aborted fresh accepted executed =>
      have entered := executed.entered_iff kind callee
      simpa [fresh, accepted] using entered

/-- Finding a callback enters the text of the library it loads. -/
theorem Fetched.entered {result : Except String (Option FuncRef)}
    (fetched : Fetched rt ctx function load before result after)
    (entered : after.Entered kind callee) : before.Entered kind callee ∨
      .library = kind ∧ ∃ libId lib, ctx.libraries.lookup libId = some lib ∧
        rt.syntaxError lib.code = none ∧ callee = .chunk lib.code := by
  have library {libId : Nat} {lib : LuajitLibrary} {answer : Except String Bool}
      {ready : Core CallHost} (lookup : ctx.libraries.lookup libId = some lib)
      (readied : Readied rt lib libId load before answer ready)
      (entered : ready.Entered kind callee) : before.Entered kind callee ∨
        .library = kind ∧ ∃ libId lib, ctx.libraries.lookup libId = some lib ∧
          rt.syntaxError lib.code = none ∧ callee = .chunk lib.code := by
    rcases (readied.entered_iff kind callee).mp entered with old | ⟨⟨-, accepted⟩, same, text⟩
    · exact .inl old
    · exact .inr ⟨same, libId, lib, lookup, accepted, text.symm⟩
  cases fetched with
  | hit => exact .inl entered
  | rejected => exact .inl (entered_note_sent_iff.mp entered)
  | compiled => exact .inl entered
  | missing => exact .inl (entered_note_sent_iff.mp entered)
  | unready _ _ lookup readied => exact library lookup readied entered
  | crashed _ _ lookup readied => exact library lookup readied entered
  | unbound _ _ lookup readied =>
      exact library lookup readied (entered_note_sent_iff.mp entered)
  | bound _ _ lookup readied => exact library lookup readied entered

/-- An invocation enters its callback, unless storing the arguments raises. -/
theorem Invoked.entered {callback : FuncRef} {returns : Bool}
    (invoked : Invoked rt ctx type body callback before returns after)
    (entered : after.Entered kind callee) :
    before.Entered kind callee ∨ .body = kind ∧ callback = callee := by
  cases invoked with
  | unstarted _ handled => exact .inl (handled.entered_iff.mp entered)
  | aborted handled executed =>
      rw [executed.entered_iff, handled.entered_iff] at entered
      exact entered
  | unreported handled executed reported =>
      rw [reported.entered_iff, executed.entered_iff, handled.entered_iff] at entered
      exact entered
  | finished handled executed reported =>
      have here := reported.entered_iff.mp entered
      rw [executed.entered_iff, handled.entered_iff] at here
      exact here

/-- An invocation that returns has entered its callback, and so has every invocation of
a library's function. -/
theorem Invoked.enters {callback : FuncRef} {returns : Bool}
    (invoked : Invoked rt ctx type body callback before returns after)
    (started : type = .eval → returns = true) : after.Entered .body callback := by
  have enters {begun : Core CallHost} {arguments : List Value}
      {outcome : Outcome CallHost (List Value)}
      (executed : Executed rt type.state .body body callback arguments begun outcome) :
      outcome.world.core.Entered .body callback :=
    (executed.entered_iff .body callback).mpr (.inr ⟨rfl, rfl⟩)
  cases invoked with
  | unstarted eval => exact absurd (started eval) Bool.false_ne_true
  | aborted _ executed => exact enters executed
  | unreported _ executed reported => exact reported.entered_iff.mpr (enters executed)
  | finished _ executed reported => exact reported.entered_iff.mpr (enters executed)

/-- Apart from the table of functions, an invocation leaves the tables of the registry alone. -/
theorem Invoked.hidden {callback : FuncRef} {returns : Bool}
    (invoked : Invoked rt ctx type body callback before returns after) {name : String}
    (other : name ≠ libraryFunctionsName) : after.lua.hidden name = before.lua.hidden name := by
  have armed : (before.arm ctx type).lua.hidden = before.lua.hidden :=
    State.withFfi_hidden ctx moduleCtxPointer before.lua
  have cleared (core : Core CallHost) : (core.disarm ctx).lua.hidden = core.lua.hidden :=
    State.withFfi_hidden ctx 0 core.lua.disarm
  cases invoked with
  | unstarted _ handled => rw [handled.hidden, armed]
  | aborted handled executed =>
      rw [executed.effect.hidden name other]
      exact congrFun (handled.hidden.trans armed) name
  | unreported handled executed reported =>
      rw [reported.hidden, executed.effect.hidden name other]
      exact congrFun (handled.hidden.trans armed) name
  | finished handled executed reported =>
      rw [cleared, reported.hidden, executed.effect.hidden name other]
      exact congrFun (handled.hidden.trans armed) name

end Calls

end ValkeyLuajit
