import ValkeyLuajit.Function.Load
import ValkeyLuajit.Library.Custody
import ValkeyLuajit.Script.Effects

/-!
# Who owns what a load allocates

A pending function owns its record and its strings. Whatever the top-level code of
a library does, an object that was freed is owned by no pending function, none is
freed twice and none has two owners.
-/

namespace ValkeyLuajit

open Lua

/-- The strings a pending function points to. -/
def PendingFunc.strings (pf : PendingFunc) : List Nat :=
  (pf.name.map ModuleString.id).toList ++ (pf.desc.map ModuleString.id).toList

/-- Its strings and its record, as `freePendingFunc` frees them. -/
def PendingFunc.objects (pf : PendingFunc) : List Nat := pf.strings ++ [pf.id]

namespace LoadHost

/-- Memory was allocated at most. -/
structure Allocates (before after : LoadHost) : Prop where
  functions : after.functions = before.functions
  freed : after.freed = before.freed
  allocated : before.allocated ≤ after.allocated

/-- Functions were added and objects freed, all of them made in the meantime, and no
object is among the freed ones and owned at once, or more than once. -/
def Extends (before after : LoadHost) : Prop :=
  ∃ freed functions, after.freed = before.freed ++ freed ∧
    after.functions = before.functions ++ functions ∧
    Made before.allocated after.allocated (freed ++ functions.flatMap PendingFunc.objects)

/-- An object was freed or belongs to a pending function, and neither twice nor both. -/
def Sound (host : LoadHost) : Prop :=
  Made 0 host.allocated (host.freed ++ host.functions.flatMap PendingFunc.objects)

/-- Nothing was allocated. -/
theorem Allocates.refl (host : LoadHost) : Allocates host host := ⟨rfl, rfl, le_rfl⟩

/-- One allocation after the other. -/
theorem Allocates.trans {first second third : LoadHost} (before : Allocates first second)
    (after : Allocates second third) : Allocates first third where
  functions := after.functions.trans before.functions
  freed := after.freed.trans before.freed
  allocated := before.allocated.trans after.allocated

/-- Who allocates at most adds and frees nothing. -/
theorem Allocates.extends {before after : LoadHost} (allocates : Allocates before after) :
    Extends before after :=
  ⟨[], [], by simp [allocates.freed], by simp [allocates.functions], .nil allocates.allocated⟩

/-- What one part frees the other does not own, since each deals with its own objects. -/
theorem Extends.trans {first second third : LoadHost} (before : Extends first second)
    (after : Extends second third) : Extends first third := by
  obtain ⟨freed, functions, sameFreed, sameFunctions, early⟩ := before
  obtain ⟨freed', functions', sameFreed', sameFunctions', late⟩ := after
  refine ⟨freed ++ freed', functions ++ functions', ?_, ?_, ?_⟩
  · rw [sameFreed', sameFreed, List.append_assoc]
  · rw [sameFunctions', sameFunctions, List.append_assoc]
  · rw [List.flatMap_append]
    exact early.append_append late

/-- What is made from nothing is sound. -/
theorem Extends.sound {host : LoadHost} (grown : Extends {} host) : host.Sound := by
  obtain ⟨freed, functions, sameFreed, sameFunctions, made⟩ := grown
  rw [Sound, sameFreed, sameFunctions]
  exact made

/-- Allocating, as an effect. -/
def allocation : Effect LoadHost where
  allows := fun before after => Allocates before.host after.host
  refl := fun core => .refl core.host
  trans := Allocates.trans

/-- Extending, as an effect. -/
def custody : Effect LoadHost where
  allows := fun before after => Extends before.host after.host
  refl := fun core => (Allocates.refl core.host).extends
  trans := Extends.trans

end LoadHost

open LoadHost

section Reading

open Effect

variable (rt : Runtime)

/-- A read may call a metamethod, which makes no object of the module's. -/
theorem allocates_getTable (index : Int) : allocation.Bounds (luaGetTable rt index) :=
  bounds_bind (bounds_value _) fun _ => bounds_bind (bounds_value _) fun _ =>
    bounds_bind (bounds_pop _) fun _ =>
      bounds_bind (bounds_index fun _ host _ => .refl host) fun _ => bounds_push _

/-- Reading the flags makes no object. -/
theorem allocates_readFlags (rounds j flags : Nat) :
    allocation.Bounds (readFlagsLoop rt rounds j flags) := by
  induction rounds generalizing j flags with
  | zero => exact bounds_of_core fun _ => rfl
  | succ rounds ih =>
      refine bounds_bind (bounds_push _) fun _ => bounds_bind (allocates_getTable rt _) fun _ =>
        bounds_bind (bounds_value _) fun element => ?_
      refine bounds_ite (bounds_bind (bounds_pop _) fun _ => bounds_pure _) ?_
      refine bounds_ite (bounds_bind (bounds_pop _) fun _ => bounds_pure _) ?_
      refine bounds_bind (bounds_pop _) fun _ => ?_
      split
      · exact bounds_pure _
      · exact ih _ _

/-- A text is copied to the next object; for another value nothing is made. -/
theorem luajitGetStringObject_apply (index : Int) (world : World LoadHost) :
    luajitGetStringObject rt index world =
      if (world.get index).isString then
        .done (some ⟨world.host.allocated, (world.get index).text rt⟩)
          (world.setHost { world.host with allocated := world.host.allocated + 1 })
      else .done none world := by
  simp only [luajitGetStringObject, LuaM.bind_apply, luaValue_apply, Outcome.andThen_done,
    LuaM.ite_apply, allocate_apply, LuaM.pure_apply]

/-- One object is made at most. -/
theorem allocates_getStringObject (index : Int) :
    allocation.Bounds (luajitGetStringObject rt index) := by
  intro world
  rw [luajitGetStringObject_apply]
  split
  · exact ⟨rfl, rfl, Nat.le_succ _⟩
  · exact .refl _

/-- An entry of the table makes objects at most. -/
theorem allocates_readNamedArg (fuel : Nat) (pf : PendingFunc) :
    allocation.Bounds (readNamedArg rt fuel pf) := by
  refine bounds_bind (bounds_value _) fun argument => bounds_bind (bounds_value _) fun value => ?_
  refine bounds_ite (bounds_pure _) (bounds_ite ?_ (bounds_ite ?_ (bounds_ite ?_
    (bounds_ite ?_ (bounds_pure _)))))
  · refine bounds_bind (allocates_getStringObject rt _) fun name => ?_
    exact bounds_ite (bounds_pure _) (bounds_bind (bounds_pop _) fun _ => bounds_pure _)
  · refine bounds_bind (allocates_getStringObject rt _) fun desc => ?_
    exact bounds_ite (bounds_pure _) (bounds_bind (bounds_pop _) fun _ => bounds_pure _)
  · exact bounds_ite (bounds_pure _) (bounds_bind (bounds_pop _) fun _ => bounds_pure _)
  · refine bounds_ite (bounds_pure _) (bounds_bind (allocates_readFlags rt _ _ _) fun flags => ?_)
    split
    · exact bounds_pure _
    · exact bounds_bind (bounds_pop _) fun _ => bounds_pure _

/-- So do all its entries. -/
theorem allocates_readNamedArgsLoop (fuel rounds : Nat) (pf : PendingFunc) :
    allocation.Bounds (readNamedArgsLoop rt fuel rounds pf) := by
  induction rounds generalizing pf with
  | zero => exact bounds_of_core fun _ => rfl
  | succ rounds ih =>
      refine bounds_bind (bounds_next _) fun more => bounds_ite (bounds_pure _) ?_
      refine bounds_bind (allocates_readNamedArg rt _ _) fun read => ?_
      split
      split
      · exact bounds_pure _
      · exact ih _

end Reading

section Owning

variable {rt : Runtime} {fuel first : Nat} {pf result : PendingFunc} {err : Option String}
  {world final : World LoadHost}

/-- A traversal leaves the host alone. -/
theorem luaNext_host {index : Int} {more : Bool} (advanced : luaNext index world = .done more final) :
    final.host = world.host := by
  unfold luaNext at advanced
  split at advanced <;> cases advanced <;> rfl

/-- A new name takes the place of the old one. -/
theorem made_name (own : Made first world.host.allocated pf.strings) (text : Bytes) :
    Made first (world.host.allocated + 1)
      { pf with name := some ⟨world.host.allocated, text⟩ }.strings := by
  have kept : Made first world.host.allocated (pf.desc.map ModuleString.id).toList :=
    own.sublist (List.sublist_append_right _ _)
  exact (kept.append .next).perm List.perm_append_comm

/-- So does a new description. -/
theorem made_desc (own : Made first world.host.allocated pf.strings) (text : Bytes) :
    Made first (world.host.allocated + 1)
      { pf with desc := some ⟨world.host.allocated, text⟩ }.strings := by
  have kept : Made first world.host.allocated (pf.name.map ModuleString.id).toList :=
    own.sublist (List.sublist_append_left _ _)
  exact kept.append .next

/-- The strings of a pending function are its own while a named argument is read. -/
theorem readNamedArg_owns (own : Made first world.host.allocated pf.strings)
    (run : readNamedArg rt fuel pf world = .done (err, result) final) :
    result.id = pf.id ∧ Made first final.host.allocated result.strings := by
  have noName : Made first world.host.allocated { pf with name := none }.strings :=
    own.sublist (List.sublist_append_right _ _)
  have noDesc : Made first world.host.allocated { pf with desc := none }.strings :=
    own.sublist (by simp [PendingFunc.strings])
  simp only [readNamedArg, LuaM.bind_apply, luaValue_apply, Outcome.andThen_done, LuaM.ite_apply,
    luajitGetStringObject_apply] at run
  split at run
  · cases run
    exact ⟨rfl, own⟩
  · split at run
    · split at run
      · cases run
        exact ⟨rfl, made_name own _⟩
      · cases run
        exact ⟨rfl, noName⟩
    · split at run
      · split at run
        · cases run
          exact ⟨rfl, made_desc own _⟩
        · cases run
          exact ⟨rfl, noDesc⟩
      · split at run
        · split at run
          · cases run
            exact ⟨rfl, own⟩
          · cases run
            exact ⟨rfl, own⟩
        · split at run
          · split at run
            · cases run
              exact ⟨rfl, own⟩
            · have kept := allocates_readFlags rt fuel 1 0 world
              rw [luajitRegisterFunctionReadFlags, Outcome.andThen_eq_done] at run
              obtain ⟨flags, mid, read, run⟩ := run
              rw [read] at kept
              have later : Made first mid.host.allocated pf.strings :=
                own.widen le_rfl kept.allocated
              cases flags with
              | none =>
                  cases run
                  exact ⟨rfl, later⟩
              | some flags =>
                  cases run
                  exact ⟨rfl, later⟩
          · cases run
            exact ⟨rfl, own⟩

/-- The strings read by the loop are all made in the meantime and all different. -/
theorem readNamedArgsLoop_owns {rounds : Nat}
    (own : Made first world.host.allocated pf.strings)
    (run : readNamedArgsLoop rt fuel rounds pf world = .done (err, result) final) :
    result.id = pf.id ∧ Made first final.host.allocated result.strings := by
  induction rounds generalizing pf world with
  | zero => cases run
  | succ rounds ih =>
      simp only [readNamedArgsLoop, LuaM.bind_apply, Outcome.andThen_eq_done, LuaM.ite_apply] at run
      obtain ⟨more, next, advanced, run⟩ := run
      have same : next.host = world.host := luaNext_host advanced
      split at run
      · cases run
        exact ⟨rfl, by rwa [same]⟩
      · rw [Outcome.andThen_eq_done] at run
        obtain ⟨⟨error, mid⟩, after, read, run⟩ := run
        obtain ⟨sameId, owns⟩ := readNamedArg_owns (by rwa [same]) read
        cases error with
        | some error =>
            cases run
            exact ⟨sameId, owns⟩
        | none =>
            obtain ⟨id, strings⟩ := ih owns run
            exact ⟨id.trans sameId, strings⟩

/-- How reading the arguments may end: the strings read are the pending function's own,
or they were freed, or nothing became of them. -/
def ArgumentsEnd (pf : PendingFunc) (before : LoadHost) :
    Outcome LoadHost (Bool × PendingFunc) → Prop
  | .done (true, result) final => Allocates before final.host ∧ result.id = pf.id ∧
      Made before.allocated final.host.allocated result.strings
  | .done (false, _) final => ∃ freed, final.host.functions = before.functions ∧
      final.host.freed = before.freed ++ freed ∧
        Made before.allocated final.host.allocated freed
  | .raised _ final => Allocates before final.host
  | .aborted _ final => Allocates before final.host

/-- A rejected call frees the strings it read. -/
theorem readArgsError_end {before : LoadHost} {message : String}
    (allocates : Allocates before world.host)
    (own : Made before.allocated world.host.allocated result.strings) :
    ArgumentsEnd pf before (readArgsError rt message result world) := by
  obtain ⟨frame, base, breached, lua, host, calls⟩ := world
  simp only [readArgsError, LuaM.bind_apply, free_apply, Outcome.andThen_done, luajitPushError,
    luajitPushErrorBuff_apply, LuaM.pure_apply, World.setHost_mk]
  refine ⟨result.strings, allocates.functions, ?_, own⟩
  rw [PendingFunc.strings, ← List.append_assoc, ← allocates.freed]

/-- How reading a table of arguments may end. -/
theorem readNamedArgs_end (blank : pf.strings = []) :
    ArgumentsEnd pf world.host (luajitRegisterFunctionReadNamedArgs rt fuel pf world) := by
  have own : Made world.host.allocated world.host.allocated pf.strings := by
    rw [blank]
    exact .nil le_rfl
  simp only [luajitRegisterFunctionReadNamedArgs, LuaM.bind_apply, luaValue_apply,
    Outcome.andThen_done, LuaM.ite_apply, luaPush_apply]
  split
  · exact readArgsError_end (.refl _) own
  · have kept := allocates_readNamedArgsLoop rt fuel fuel pf (world.push .nil)
    cases looped : readNamedArgsLoop rt fuel fuel pf (world.push .nil) with
    | raised error final =>
        rw [looped] at kept
        exact kept
    | aborted reason final =>
        rw [looped] at kept
        exact kept
    | done answer final =>
        rw [looped] at kept
        obtain ⟨err, result⟩ := answer
        have start : Made world.host.allocated (world.push .nil).host.allocated pf.strings := own
        obtain ⟨sameId, owns⟩ := readNamedArgsLoop_owns start looped
        rw [Outcome.andThen_done]
        cases err with
        | some err => exact readArgsError_end kept owns
        | none =>
            simp only [LuaM.ite_apply]
            split
            · exact readArgsError_end kept owns
            · split
              · exact readArgsError_end kept owns
              · exact ⟨kept, sameId, owns⟩

/-- How reading two arguments may end. -/
theorem readPositionalArgs_end (blank : pf.strings = []) :
    ArgumentsEnd pf world.host (luajitRegisterFunctionReadPositionalArgs rt pf world) := by
  have own : Made world.host.allocated world.host.allocated pf.strings := by
    rw [blank]
    exact .nil le_rfl
  simp only [luajitRegisterFunctionReadPositionalArgs, LuaM.bind_apply, luajitGetStringObject_apply]
  split
  · have allocates : Allocates world.host
        { world.host with allocated := world.host.allocated + 1 } := ⟨rfl, rfl, Nat.le_succ _⟩
    have named := made_name own ((world.get 1).text rt)
    simp only [Outcome.andThen_done, Option.isNone_some, Bool.false_eq_true, if_false,
      LuaM.bind_apply, luaValue_apply, LuaM.ite_apply]
    split
    · exact readArgsError_end allocates named
    · exact ⟨allocates, rfl, named⟩
  · exact readArgsError_end (.refl _) own

/-- How reading the arguments may end, in either form. -/
theorem readArgs_end (blank : pf.strings = []) :
    ArgumentsEnd pf world.host (luajitRegisterFunctionReadArgs rt fuel pf world) := by
  simp only [luajitRegisterFunctionReadArgs, LuaM.bind_apply, luaGetTop_apply,
    Outcome.andThen_done, LuaM.ite_apply]
  split
  · obtain ⟨frame, base, breached, lua, host, calls⟩ := world
    simp only [luajitPushError, luajitPushErrorBuff_apply, Outcome.andThen_done, LuaM.pure_apply]
    exact ⟨[], rfl, (List.append_nil _).symm, .nil le_rfl⟩
  · split
    · exact readNamedArgs_end blank
    · exact readPositionalArgs_end blank

/-- Reading the registry makes no object. -/
theorem allocates_getFromRegistry (name : String) :
    allocation.Bounds (luajitGetFromRegistry name) := by
  refine Effect.bounds_bind (Effect.bounds_getRegistry _) fun _ =>
    Effect.bounds_bind (Effect.bounds_value _) fun saved => Effect.bounds_ite ?_ ?_
  · exact Effect.bounds_bind (Effect.bounds_pop _) fun _ => Effect.bounds_pure _
  · exact Effect.bounds_bind (Effect.bounds_assert _) fun _ =>
      Effect.bounds_bind (Effect.bounds_assert _) fun _ =>
        Effect.bounds_bind (Effect.bounds_pop _) fun _ => Effect.bounds_pure _

/-- How a call of `server.register_function` may end: it adds one function, made of what
it allocated, or it adds nothing and frees what it frees of that. -/
def RegisterEnd (before : LoadHost) : Outcome LoadHost Unit → Prop
  | .done _ final => ∃ pf, final.host.functions = before.functions ++ [pf] ∧
      final.host.freed = before.freed ∧ pf.id = before.allocated ∧
        Made before.allocated final.host.allocated pf.objects
  | .raised _ final | .aborted _ final => ∃ freed, final.host.functions = before.functions ∧
      final.host.freed = before.freed ++ freed ∧
        Made before.allocated final.host.allocated freed

/-- However the call ends, objects were only added or freed once. -/
theorem RegisterEnd.extends {before : LoadHost} {outcome : Outcome LoadHost Unit}
    (ends : RegisterEnd before outcome) : Extends before outcome.world.host := by
  cases outcome with
  | done value final =>
      obtain ⟨pf, functions, freed, -, made⟩ := ends
      exact ⟨[], [pf], by simp [freed], functions, by simpa using made⟩
  | raised error final =>
      obtain ⟨freed, functions, freeing, made⟩ := ends
      exact ⟨freed, [], freeing, by simp [functions], by simpa using made⟩
  | aborted reason final =>
      obtain ⟨freed, functions, freeing, made⟩ := ends
      exact ⟨freed, [], freeing, by simp [functions], by simpa using made⟩

/-- Who allocates at most frees nothing. -/
theorem LoadHost.Allocates.lost {before after : LoadHost} (allocates : Allocates before after) :
    ∃ freed, after.functions = before.functions ∧ after.freed = before.freed ++ freed ∧
      Made before.allocated after.allocated freed :=
  ⟨[], allocates.functions, by simp [allocates.freed], .nil allocates.allocated⟩

/-- The end of a call follows from how reading its arguments ends. -/
theorem register_end_of_read {mid : World LoadHost}
    (ends : ArgumentsEnd ⟨mid.host.allocated, none, none, false, 0⟩
      { mid.host with allocated := mid.host.allocated + 1 }
      (luajitRegisterFunctionReadArgs rt fuel ⟨mid.host.allocated, none, none, false, 0⟩
        (mid.setHost { mid.host with allocated := mid.host.allocated + 1 }))) :
    RegisterEnd mid.host ((do
      let id ← allocate
      let (accepted, pf) ← luajitRegisterFunctionReadArgs rt fuel ⟨id, none, none, false, 0⟩
      if !accepted then do
        free (some id)
        luajitError
      else addPending pf) mid) := by
  have record : Made mid.host.allocated (mid.host.allocated + 1) [mid.host.allocated] := .next
  have allocated : Allocates mid.host { mid.host with allocated := mid.host.allocated + 1 } :=
    ⟨rfl, rfl, Nat.le_succ _⟩
  simp only [LuaM.bind_apply, allocate_apply, Outcome.andThen_done]
  cases read : luajitRegisterFunctionReadArgs rt fuel ⟨mid.host.allocated, none, none, false, 0⟩
      (mid.setHost { mid.host with allocated := mid.host.allocated + 1 }) with
  | raised error final =>
      rw [read] at ends
      exact (allocated.trans ends).lost
  | aborted reason final =>
      rw [read] at ends
      exact (allocated.trans ends).lost
  | done answer final =>
      rw [read] at ends
      obtain ⟨accepted, pf⟩ := answer
      cases accepted with
      | true =>
          obtain ⟨kept, sameId, own⟩ := ends
          have functions : final.host.functions = mid.host.functions := kept.functions
          refine ⟨pf, by simp [functions, World.setHost], kept.freed, sameId, ?_⟩
          rw [PendingFunc.objects, sameId]
          exact (record.append own).perm List.perm_append_comm
      | false =>
          obtain ⟨freed, functions, freeing, own⟩ := ends
          refine ⟨freed ++ [mid.host.allocated], functions, ?_,
            (record.append own).perm List.perm_append_comm⟩
          simp [freeing, World.setHost]

variable (rt fuel) in
/-- How a call of `register_function` may end. -/
theorem register_end (world : World LoadHost) :
    RegisterEnd world.host (luajitFunctionRegisterFunction rt fuel world) := by
  rw [luajitFunctionRegisterFunction, LuaM.bind_apply]
  cases got : luajitGetFromRegistry registryLoadCtxName world with
  | raised error mid =>
      have found := allocates_getFromRegistry registryLoadCtxName world
      rw [got] at found
      exact LoadHost.Allocates.lost found
  | aborted reason mid =>
      have found := allocates_getFromRegistry registryLoadCtxName world
      rw [got] at found
      exact LoadHost.Allocates.lost found
  | done loadCtx mid =>
      obtain rfl := luajitGetFromRegistry_done got
      rw [Outcome.andThen_done]
      cases loadCtx with
      | none =>
          obtain ⟨frame, base, breached, lua, host, calls⟩ := mid
          simp only [Option.isNone_none, if_true, LuaM.bind_apply, luajitPushError,
            luajitPushErrorBuff_apply, Outcome.andThen_done, luajitError_apply]
          exact (Allocates.refl host).lost
      | some pointer => exact register_end_of_read (readArgs_end rfl)

/-- The assertion makes no object. -/
theorem allocates_requireRunCtx : allocation.Bounds (requireRunCtx : LuaM LoadHost Unit) :=
  Effect.bounds_bind (allocates_getFromRegistry _) fun _ => Effect.bounds_assert _

variable (rt) in
/-- The hook makes nothing the host would own. -/
theorem allocates_engineLoadHook (expired : Bool) :
    allocation.Bounds (luajitEngineLoadHook rt expired) := by
  refine Effect.bounds_bind (allocates_getFromRegistry _) fun _ =>
    Effect.bounds_bind (Effect.bounds_assert _) fun _ => Effect.bounds_ite ?_ (Effect.bounds_pure _)
  rintro ⟨frame, base, breached, lua, host, calls⟩
  simp only [LuaM.bind_apply, luaSetHook_apply, Outcome.andThen_done, World.setHook_mk,
    luajitPushError, luajitPushErrorBuff_apply, luajitError_apply]
  exact .refl host

variable (rt fuel) in
/-- An action of top-level code keeps custody of what is made. -/
theorem custody_perform (action : Action) :
    custody.Bounds ((scratchSetting rt fuel).perform action) := by
  apply Setting.bounds_perform
  · exact fun core heap => (Allocates.refl core.host).extends
  · intro function exposed world
    have listed : function = .registerFunction ∨ function = .log := by
      simpa [scratchSetting, StateKind.exposed] using exposed
    rcases listed with rfl | rfl
    · exact (register_end rt fuel world).extends
    · exact Allocates.extends (allocates_requireRunCtx world)
  · exact fun signal world => Allocates.extends (allocates_engineLoadHook rt signal world)

variable (rt fuel) in
/-- So does all of it. -/
theorem custody_run (topLevel : ScriptRun) :
    custody.Bounds ((scratchSetting rt fuel).run topLevel) :=
  Setting.bounds_run (custody_perform rt fuel) (Effect.bounds_pure ()) topLevel

variable (rt fuel) in
/-- So it is when the top-level code of a library is over. -/
theorem sound_topLevel (topLevel : ScriptRun) :
    ((scratchSetting rt fuel).run topLevel scratchStart).world.host.Sound :=
  Extends.sound (custody_run rt fuel topLevel scratchStart)

end Owning

end ValkeyLuajit
