import Mathlib.Data.List.Forall2
import ValkeyLuajit.Function.Agreement
import ValkeyLuajit.Function.Ownership

/-!
# The registrations of a load

A load turns the calls of `server.register_function` it accepted into compiled
functions, one for each call and in their order. Of the strings of a call only
the last ones met under a name are kept; a table that spells a key twice leaves the
others to nobody.
-/

namespace ValkeyLuajit

open Lua

/-- A call of `server.register_function` that the load accepted. -/
structure Registration (rt : Runtime) (fuel : Nat) where
  before : World LoadHost
  arguments : List Value
  after : World LoadHost
  accepted : inFrame arguments (luajitFunctionRegisterFunction rt fuel) before = .done () after

section Calls

variable (rt : Runtime) (fuel : Nat)

/-- The registration that a call with these arguments is, if it is accepted. -/
def registrationOf (arguments : List Value) (world : World LoadHost) :
    List (Registration rt fuel) :=
  match accepted : inFrame arguments (luajitFunctionRegisterFunction rt fuel) world with
  | .done () after => [⟨world, arguments, after, accepted⟩]
  | _ => []

/-- The registration that an action is, if it is one and is accepted. -/
def Action.registration (world : World LoadHost) : Action → List (Registration rt fuel)
  | .call .registerFunction arguments => registrationOf rt fuel arguments world
  | _ => []

/-- The registrations among the actions, each made from the world the ones before it
leave. -/
def acceptedCalls : List Action → World LoadHost → List (Registration rt fuel)
  | [], _ => []
  | action :: rest, world =>
      action.registration rt fuel world ++
        match (scratchSetting rt fuel).perform action world with
        | .done _ next => acceptedCalls rest next
        | _ => []

end Calls

section

variable {rt : Runtime} {fuel : Nat}

/-- The strings the call allocated. The first object it allocates is its record. -/
def Registration.strings (call : Registration rt fuel) : List Nat :=
  List.range' (call.before.host.allocated + 1)
    (call.after.host.allocated - (call.before.host.allocated + 1))

/-- The arguments give a name and a description under one spelling at most. -/
def Registration.GivenOnce (call : Registration rt fuel) : Prop :=
  ∀ met, ArgumentsMet rt fuel call.before call.arguments met →
    met.countP (fun entry => IsAlias rt "function_name" entry.1) ≤ 1 ∧
      met.countP (fun entry => IsAlias rt "description" entry.1) ≤ 1

/-- The pending function is what the call asked for: the name, the description and the
flags that were met last. -/
structure Registration.Asks (call : Registration rt fuel) (name desc : Option Bytes)
    (flags : Nat) : Prop where
  met : ∃ met, ArgumentsMet rt fuel call.before call.arguments met ∧
    name = (lastAlias rt "function_name" met).map (Value.text rt) ∧
    desc = (lastAlias rt "description" met).map (Value.text rt) ∧
    flags = flagsMet rt fuel met call.before.lua call.before.metaCalls 0

/-- The pending function a call made. -/
structure Registration.Makes (call : Registration rt fuel) (pf : PendingFunc) : Prop where
  functions : call.after.host.functions = call.before.host.functions ++ [pf]
  freed : call.after.host.freed = call.before.host.freed
  id : pf.id = call.before.host.allocated
  made : Made call.before.host.allocated call.after.host.allocated pf.objects

/-- What a C function in a frame of its own does to the C data. -/
theorem inFrame_host {σ α : Type} {arguments : List Value} {operation : LuaM σ α} {value : α}
    {world final : World σ} (run : inFrame arguments operation world = .done value final) :
    ∃ inner, operation ⟨arguments.reverse, world.stack, false, world.lua, world.host,
      world.metaCalls⟩ = .done value inner ∧ final.host = inner.host := by
  obtain ⟨inner, ended, rfl⟩ := inFrame_eq_done.mp run
  exact ⟨inner, ended, rfl⟩

theorem Registration.makes (call : Registration rt fuel) : ∃ pf, call.Makes pf := by
  obtain ⟨inner, ended, same⟩ := inFrame_host call.accepted
  have ends := register_end rt fuel ⟨call.arguments.reverse, call.before.stack, false,
    call.before.lua, call.before.host, call.before.metaCalls⟩
  rw [ended] at ends
  obtain ⟨pf, functions, freed, id, made⟩ := ends
  exact ⟨pf, by rw [same, functions], by rw [same, freed], id, by rw [same]; exact made⟩

/-- Its pending function is what it asked for. -/
theorem Registration.Makes.asks {call : Registration rt fuel} {pf : PendingFunc}
    (makes : call.Makes pf) :
    call.Asks (pf.name.map ModuleString.text) (pf.desc.map ModuleString.text) pf.flags := by
  obtain ⟨met, pf', name, callback, arguments, functions, named, text, -, -, gathered⟩ :=
    register_accepted call.accepted
  obtain rfl : pf = pf' := by simpa [makes.functions] using functions
  exact ⟨met, arguments, by rw [text, named]; rfl, by simpa using gathered.desc, gathered.flags⟩

/-- An entry is taken for a name or for a description, not for both. -/
theorem countP_givesString (met : List (Value × Value)) :
    met.countP (GivesString rt) = met.countP (fun entry => IsAlias rt "function_name" entry.1) +
      met.countP (fun entry => IsAlias rt "description" entry.1) := by
  induction met with
  | nil => rfl
  | cons entry rest ih =>
      have apart : IsAlias rt "function_name" entry.1 = true →
          IsAlias rt "description" entry.1 = false := strcasecmp_exclusive (by decide)
      rw [List.countP_cons, List.countP_cons, List.countP_cons, ih]
      cases name : IsAlias rt "function_name" entry.1 with
      | true =>
          simp [GivesString, name, apart name]
          omega
      | false =>
          cases desc : IsAlias rt "description" entry.1 <;> simp [GivesString, name, desc]
          omega

/-- A name was met when an entry is taken for it. -/
theorem lastAlias_isSome (name : String) (met : List (Value × Value)) :
    (lastAlias rt name met).isSome = true ↔ 0 < met.countP fun entry => IsAlias rt name entry.1 := by
  induction met with
  | nil => simp [lastAlias]
  | cons entry rest ih =>
      rw [lastAlias, Option.isSome_or, Bool.or_eq_true, ih, List.countP_cons]
      cases taken : IsAlias rt name entry.1 <;> simp

/-- All the strings of a call are its function's exactly when it gives them once. -/
theorem Registration.Makes.owns_iff {call : Registration rt fuel} {pf : PendingFunc}
    (makes : call.Makes pf) : (∀ object ∈ call.strings, object ∈ pf.strings) ↔ call.GivenOnce := by
  obtain ⟨met, pf', name, callback, arguments, functions, named, text, -, -, gathered⟩ :=
    register_accepted call.accepted
  obtain rfl : pf = pf' := by simpa [makes.functions] using functions
  have own : Made (call.before.host.allocated + 1) call.after.host.allocated pf.strings := by
    have made := makes.made
    rw [PendingFunc.objects, makes.id] at made
    obtain ⟨distinct, -, apart⟩ := List.nodup_append'.mp made.distinct
    refine ⟨?_, distinct, fun object member => ?_⟩
    · have inside := made.range call.before.host.allocated (by simp)
      omega
    · have inside := made.range object (List.mem_append_left _ member)
      have other : object ≠ call.before.host.allocated := by
        rintro rfl
        exact apart member (List.mem_singleton_self _)
      omega
  have listed : (∀ object ∈ call.strings, object ∈ pf.strings) ↔
      ∀ object, call.before.host.allocated + 1 ≤ object → object < call.after.host.allocated →
        object ∈ pf.strings := by
    refine forall_congr' fun object => ?_
    have order := own.order
    rw [Registration.strings, List.mem_range'_1]
    constructor
    · intro owned above below
      exact owned (by omega)
    · intro owned inside
      exact owned inside.1 (by omega)
  have once : call.GivenOnce ↔ met.countP (fun entry => IsAlias rt "function_name" entry.1) ≤ 1 ∧
      met.countP (fun entry => IsAlias rt "description" entry.1) ≤ 1 := by
    constructor
    · exact fun all => all met arguments
    · intro here other otherMet
      rwa [otherMet.unique arguments]
  have hasName : pf.name.isSome = true := by
    rw [← Option.isSome_map, text]
    rfl
  have names : 0 < met.countP fun entry => IsAlias rt "function_name" entry.1 :=
    (lastAlias_isSome _ _).mp (by rw [named]; rfl)
  have descs : pf.desc.isSome = true ↔ 0 < met.countP fun entry => IsAlias rt "description" entry.1 := by
    have same : (pf.desc.map ModuleString.text).isSome =
        ((lastAlias rt "description" met).map (Value.text rt)).isSome :=
      congrArg Option.isSome (by simpa using gathered.desc)
    rw [Option.isSome_map, Option.isSome_map] at same
    rw [same]
    exact lastAlias_isSome _ _
  have length : pf.strings.length = 1 + (if pf.desc.isSome then 1 else 0) := by
    obtain ⟨string, present⟩ := Option.isSome_iff_exists.mp hasName
    cases described : pf.desc <;> simp [PendingFunc.strings, present, described]
  have allocated : call.after.host.allocated = call.before.host.allocated + 1 +
      (met.countP (fun entry => IsAlias rt "function_name" entry.1) +
        met.countP (fun entry => IsAlias rt "description" entry.1)) := by
    rw [← countP_givesString]
    exact gathered.allocated
  rw [listed, own.complete_iff, once, length, allocated]
  split
  · rename_i described
    have some := descs.mp described
    omega
  · rename_i described
    have none := mt descs.mpr described
    omega

/-- What the actions of a load make: a pending function for every accepted call, in their
order, each of objects that were allocated after those of the calls before it. -/
structure Registered (calls : List (Registration rt fuel)) (before after : LoadHost) : Prop where
  functions : ∃ added, after.functions = before.functions ++ added ∧
    List.Forall₂ Registration.Makes calls added
  order : calls.Pairwise fun earlier later =>
    earlier.after.host.allocated ≤ later.before.host.allocated
  range : ∀ call ∈ calls, before.allocated ≤ call.before.host.allocated ∧
    call.after.host.allocated ≤ after.allocated

theorem Registered.nil {before after : LoadHost} (functions : after.functions = before.functions) :
    Registered ([] : List (Registration rt fuel)) before after :=
  ⟨⟨[], by simp [functions], .nil⟩, .nil, by simp⟩

theorem Registered.append {early late : List (Registration rt fuel)}
    {before between after : LoadHost} (first : Registered early before between)
    (later : Registered late between after) (began : before.allocated ≤ between.allocated)
    (ended : between.allocated ≤ after.allocated) :
    Registered (early ++ late) before after where
  functions := by
    obtain ⟨added, functions, makes⟩ := first.functions
    obtain ⟨added', functions', makes'⟩ := later.functions
    exact ⟨added ++ added', by rw [functions', functions, List.append_assoc],
      List.rel_append makes makes'⟩
  order := by
    refine List.pairwise_append.mpr ⟨first.order, later.order, fun call inEarly other inLate => ?_⟩
    exact (first.range call inEarly).2.trans (later.range other inLate).1
  range := by
    intro call member
    rcases List.mem_append.mp member with inEarly | inLate
    · exact ⟨(first.range call inEarly).1, (first.range call inEarly).2.trans ended⟩
    · exact ⟨began.trans (later.range call inLate).1, (later.range call inLate).2⟩

/-- What a call of `server.register_function` that the script makes comes to. -/
theorem register_registered {arguments : List Value} {world next : World LoadHost}
    (performed : catching (inFrame arguments (luajitFunctionRegisterFunction rt fuel)) world =
      .done () next) :
    Registered (registrationOf rt fuel arguments world) world.host next.host := by
  unfold registrationOf
  split
  · rename_i after accepted
    obtain rfl : after = next := by simpa [catching, accepted] using performed
    let call : Registration rt fuel := ⟨world, arguments, after, accepted⟩
    obtain ⟨pf, makes⟩ := call.makes
    exact ⟨⟨[pf], makes.functions, .cons makes .nil⟩, List.pairwise_singleton _ _,
      by simp⟩
  · rename_i rejected
    have ends := register_end rt fuel ⟨arguments.reverse, world.stack, false, world.lua, world.host,
      world.metaCalls⟩
    apply Registered.nil
    cases ended : inFrame arguments (luajitFunctionRegisterFunction rt fuel) world with
    | done value final => exact absurd ended (rejected final)
    | raised error final =>
        obtain ⟨inner, run, rfl⟩ := inFrame_eq_raised.mp ended
        obtain rfl : _ = next := by simpa [catching, ended] using performed
        rw [run] at ends
        obtain ⟨freed, functions, -⟩ := ends
        exact functions
    | aborted reason final => simp [catching, ended] at performed

/-- What an action comes to. -/
theorem perform_registered {action : Action} {world next : World LoadHost}
    (performed : (scratchSetting rt fuel).perform action world = .done () next) :
    Registered (action.registration rt fuel world) world.host next.host := by
  cases action with
  | step heap =>
      cases performed
      exact .nil rfl
  | tick signal =>
      apply Registered.nil
      simp only [Setting.perform] at performed
      split at performed
      · have kept := bounds_catching (Effect.bounds_inFrame []
          (allocates_engineLoadHook rt signal)) world
        rw [show catching (inFrame [] (luajitEngineLoadHook rt signal)) world = _ from performed]
          at kept
        exact kept.functions
      · cases performed
        rfl
  | call function arguments =>
      by_cases exposed : function ∈ (scratchSetting rt fuel).exposed
      · have listed : function = .registerFunction ∨ function = .log := by
          simpa [scratchSetting, StateKind.exposed] using exposed
        simp only [Setting.perform, if_pos exposed] at performed
        rcases listed with rfl | rfl
        · exact register_registered performed
        · have kept := bounds_catching (Effect.bounds_inFrame arguments allocates_requireRunCtx) world
          rw [show catching (inFrame arguments (requireRunCtx : LuaM LoadHost Unit)) world = _ from
            performed] at kept
          exact .nil kept.functions
      · simp only [Setting.perform, if_neg exposed] at performed
        cases performed
        have other : function ≠ .registerFunction := by
          rintro rfl
          exact exposed (by simp [scratchSetting, StateKind.exposed])
        have none : (Action.call function arguments).registration rt fuel world = [] := by
          cases function <;> first | rfl | exact absurd rfl other
        rw [none]
        exact .nil rfl

/-- So it is with all the actions of a load. -/
theorem performAll_registered {actions : List Action} {world final : World LoadHost}
    (performed : (scratchSetting rt fuel).performAll actions world = .done () final) :
    Registered (acceptedCalls rt fuel actions world) world.host final.host ∧
      world.host.allocated ≤ final.host.allocated := by
  induction actions generalizing world with
  | nil =>
      cases performed
      exact ⟨.nil rfl, le_rfl⟩
  | cons action rest ih =>
      have performs : (scratchSetting rt fuel).performAll (action :: rest) world =
          ((scratchSetting rt fuel).perform action world).andThen
            fun _ => (scratchSetting rt fuel).performAll rest := rfl
      rw [performs, Outcome.andThen_eq_done] at performed
      obtain ⟨_, next, first, others⟩ := performed
      obtain ⟨later, grows⟩ := ih others
      have grew : world.host.allocated ≤ next.host.allocated := by
        have grown := custody_perform rt fuel action world
        rw [first] at grown
        obtain ⟨freed, functions, -, -, made⟩ := grown
        exact made.order
      refine ⟨?_, grew.trans grows⟩
      rw [acceptedCalls, first]
      exact (perform_registered first).append later grew grows

/-- Every function made was made by one of the calls. -/
theorem maker_of_mem {calls : List (Registration rt fuel)} {added : List PendingFunc}
    (makes : List.Forall₂ Registration.Makes calls added) {pf : PendingFunc} (member : pf ∈ added) :
    ∃ call ∈ calls, call.Makes pf := by
  induction makes with
  | nil => cases member
  | cons made others ih =>
      rcases List.mem_cons.mp member with rfl | later
      · exact ⟨_, List.mem_cons_self, made⟩
      · obtain ⟨call, listed, here⟩ := ih later
        exact ⟨call, List.mem_cons_of_mem _ listed, here⟩

/-- The strings of all the calls belong to the functions made of them exactly when every
call gives its strings once. -/
theorem owned_iff {calls : List (Registration rt fuel)} {added : List PendingFunc}
    (makes : List.Forall₂ Registration.Makes calls added)
    (order : calls.Pairwise fun earlier later =>
      earlier.after.host.allocated ≤ later.before.host.allocated) :
    (∀ call ∈ calls, ∀ object ∈ call.strings, object ∈ added.flatMap PendingFunc.strings) ↔
      ∀ call ∈ calls, call.GivenOnce := by
  induction makes with
  | nil => simp
  | @cons call pf calls added makes others ih =>
      obtain ⟨after, order⟩ := List.pairwise_cons.mp order
      -- Strings of this call are below those of the calls after it.
      have later : ∀ object ∈ added.flatMap PendingFunc.strings,
          call.after.host.allocated ≤ object := by
        intro object member
        obtain ⟨other, listed, owned⟩ := List.mem_flatMap.mp member
        obtain ⟨maker, isCall, made⟩ := maker_of_mem others listed
        have above := made.made.range object (List.mem_append_left _ owned)
        exact (after maker isCall).trans above.1
      have own : (∀ object ∈ call.strings,
          object ∈ pf.strings ∨ object ∈ added.flatMap PendingFunc.strings) ↔ call.GivenOnce := by
        rw [← makes.owns_iff]
        refine forall₂_congr fun object member => or_iff_left fun inLater => ?_
        have above := later object inLater
        have below := List.mem_range'_1.mp member
        omega
      have rest : (∀ other ∈ calls, ∀ object ∈ other.strings,
          object ∈ pf.strings ∨ object ∈ added.flatMap PendingFunc.strings) ↔
            ∀ other ∈ calls, other.GivenOnce := by
        rw [← ih order]
        refine forall₂_congr fun other isCall => forall₂_congr fun object member =>
          or_iff_right fun inOwn => ?_
        have below := (makes.made.range object (List.mem_append_left _ inOwn)).2
        have above := (List.mem_range'_1.mp member).1
        have apart := after other isCall
        omega
      simp only [List.forall_mem_cons, List.flatMap_cons, List.mem_append]
      exact and_congr own rest

end

end ValkeyLuajit
