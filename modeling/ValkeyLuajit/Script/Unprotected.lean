import ValkeyLuajit.Script.Error

/-!
# Reading an error outside a protected call

`luajitExtractErrorInformation` is called after `lua_pcall` has returned. It reads
four fields of the error value, one after the other, and each of them may call a
metamethod that raises.
-/

namespace ValkeyLuajit

open Lua

/-- The fields that are read, in this order. -/
def errorFields : List String := ["err", "source", "line", "ignore_error_stats_update"]

/-- The fields of the object can be read in turn without an error. -/
def Lua.State.reads (rt : Runtime) (object : Value) :
    List String → State → List (FuncRef × State) → Bool
  | [], _, _ => true
  | field :: rest, lua, calls =>
      match lua.fetch rt calls object (.string (bytes field)) with
      | (.ok _, lua, calls) => reads rt object rest lua calls
      | (.error _, _, _) => false

/-- The error value can be reported: it is a string, or its fields can be read. -/
def Lua.State.reports (rt : Runtime) (error : Value) (lua : State)
    (calls : List (FuncRef × State)) : Bool :=
  error.isString || lua.reads rt error errorFields calls

section

variable {σ : Type} {rt : Runtime} {error : Value} {frame base : List Value} {breached : Bool}
  {lua : State} {host : σ} {calls : List (FuncRef × State)}

theorem luaGetField_fetch (field : String) :
    luaGetField rt (-1) field (⟨error :: frame, base, breached, lua, host, calls⟩ : World σ) =
      match lua.fetch rt calls error (.string (bytes field)) with
      | (.ok found, lua, calls) =>
          .done () ⟨found :: error :: frame, base, breached, lua, host, calls⟩
      | (.error raised, lua, calls) =>
          .raised raised ⟨error :: frame, base, breached, lua, host, calls⟩ := by
  simp only [luaGetField, LuaM.bind_apply, luaValue_apply, Outcome.andThen_done,
    World.get_neg_one, World.stack_mk, List.cons_append, List.getD_cons_zero, luaIndex_fetch]
  rcases lua.fetch rt calls error (.string (bytes field)) with ⟨raised | found, lua', calls'⟩ <;> rfl

theorem readErrorField_fetch (field : String) :
    readErrorField rt field (⟨error :: frame, base, breached, lua, host, calls⟩ : World σ) =
      match lua.fetch rt calls error (.string (bytes field)) with
      | (.ok found, lua, calls) =>
          .done (if found.isString then some (cString (found.text rt)) else none)
            ⟨error :: frame, base, breached, lua, host, calls⟩
      | (.error raised, lua, calls) =>
          .raised raised ⟨error :: frame, base, breached, lua, host, calls⟩ := by
  simp only [readErrorField, LuaM.bind_apply, luaGetField_fetch]
  rcases lua.fetch rt calls error (.string (bytes field)) with ⟨raised | found, lua', calls'⟩
  · rfl
  · simp

end

end ValkeyLuajit
