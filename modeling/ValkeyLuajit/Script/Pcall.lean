import ValkeyLuajit.Function.Load

/-!
# The replacement of `pcall`

Scripts get a `pcall` that catches an error table of the server and returns its message, as
older servers had it. What the called function does is a parameter.
-/

namespace ValkeyLuajit

open Lua

section

variable {σ : Type} (rt : Runtime) (call : FuncRef → List Value → LuaM σ (List Value))

/-- `return lua_gettop(lua)`: every value of the frame is a result. -/
def luaReturnAll : LuaM σ (List Value) := fun world => .done world.frame.reverse world

/-- `lua_pcall` with `-1` arguments: the function it calls is a slot beyond the top. -/
def callBeyondStack : LuaM σ Bool := fun world =>
  .aborted "lua_pcall of a slot beyond the stack" world

/-- What is done about an error, which is on the top then. -/
def catchError : LuaM σ (List Value) := do
  luaRemove 1
  let error ← luaValue (-1)
  if error.isTable then do
    luaGetField rt (-1) "err"
    let err ← luaValue (-1)
    if err.isString then luaReplace (-2) else pure ()
  else pure ()
  luaPush (.boolean false)
  luaInsert 1
  luaReturnAll

def luajitRedisPcall : LuaM σ (List Value) := do
  let argc ← luaGetTop
  luaPush (.boolean true)
  luaInsert 1
  let raised ← if argc = 0 then callBeyondStack else luaPCall (argc - 1) call
  if raised then catchError rt else luaReturnAll

/-- The call itself: the function and its arguments are off the stack. -/
def protectedCall (callee : Value) (arguments : List Value) : LuaM σ (List Value) := fun world =>
  inFrame arguments (call (match callee with
      | .function ref => ref
      | _ => .native "attempt to call a non-function value") arguments)
    { world with frame := [.boolean true] }

/-- The text in the `err` field of a table, if the field can be read and has one. -/
def errText (lua : State) (calls : List (FuncRef × State)) (error : Value) : Option Bytes :=
  match lua.fetch rt calls error (.string (bytes "err")) with
  | (.ok (.string text), _) => some text
  | _ => none

/-- What `pcall` is to return for an error: the message of an error table, or the error. -/
def unwrapped (lua : State) (calls : List (FuncRef × State)) (error : Value) : Value :=
  if error.isTable then ((errText rt lua calls error).map Value.string).getD error else error

/-- The results, if the function returned. -/
def Lua.Outcome.Returns {α : Type} (outcome : Outcome σ α) (results : α) : Prop :=
  ∃ final, outcome = .done results final

/-- Lua's `pcall`, with server errors unwrapped. -/
def IsPcall (world : World σ) : Prop :=
  match world.frame.reverse with
  | [] => ∃ error final, luajitRedisPcall rt call world = .raised error final
  | callee :: arguments => match protectedCall call callee arguments world with
    | .done results _ => (luajitRedisPcall rt call world).Returns (.boolean true :: results)
    | .raised error final => (luajitRedisPcall rt call world).Returns
        [.boolean false, unwrapped rt final.lua final.metaCalls error]
    | .aborted _ _ => True

/-- There is a function to call, and every table it raises has a text in its `err` field. -/
def RaisesUnwrappable (world : World σ) : Prop :=
  match world.frame.reverse with
  | [] => False
  | callee :: arguments => ∀ error final,
      protectedCall call callee arguments world = .raised error final → error.isTable →
        (errText rt final.lua final.metaCalls error).isSome

end

section

variable {σ : Type} {rt : Runtime} {call : FuncRef → List Value → LuaM σ (List Value)}
  {callee : Value} {arguments base : List Value} {breached : Bool} {lua : State} {host : σ}
  {calls : List (FuncRef × State)}

/-- The frame of a protected call is back when it ends. -/
theorem protectedCall_frame (world : World σ) :
    (protectedCall call callee arguments world).world.frame = [.boolean true] := by
  unfold protectedCall inFrame
  split <;> rfl

/-- `lua_pcall` is the protected call, and pushes its results or its error. -/
theorem luaPCall_protected :
    luaPCall arguments.length call
        ⟨arguments.reverse ++ [callee] ++ [.boolean true], base, breached, lua, host, calls⟩ =
      match protectedCall call callee arguments
          ⟨arguments.reverse ++ [callee], base, breached, lua, host, calls⟩ with
      | .done results final => .done false { final with frame := results.reverse ++ final.frame }
      | .raised error final => .done true (final.push error)
      | .aborted reason final => .aborted reason final := by
  let slots := arguments.reverse ++ [callee] ++ [.boolean true]
  have taken : ((slots ++ base).take arguments.length).reverse = arguments := by
    simp only [slots, List.append_assoc]
    rw [List.take_left' List.length_reverse, List.reverse_reverse]
  have below : (slots ++ base).getD arguments.length .nil = callee := by
    simp only [slots, List.append_assoc]
    rw [List.getD_eq_getElem?_getD, List.getElem?_append_right (by simp)]
    simp
  have popped : (World.mk slots base breached lua host calls).pop (arguments.length + 1) =
      ⟨[.boolean true], base, breached, lua, host, calls⟩ := by
    have enough : ¬ slots.length < arguments.length + 1 := by simp [slots]
    have none : arguments.length + 1 - slots.length = 0 := by simp [slots]
    have rest : slots.drop (arguments.length + 1) = [.boolean true] :=
      List.drop_left' (by simp)
    simp [World.pop, enough, none, rest]
  unfold luaPCall protectedCall
  simp only [World.stack_mk, World.callee]
  rewrite [taken, below, popped]
  rfl

/-- A value is moved to the bottom. -/
theorem luaInsert_bottom (value : Value) (frame : List Value) :
    luaInsert 1 ⟨value :: frame, base, breached, lua, host, calls⟩ =
      .done () ⟨frame ++ [value], base, breached, lua, host, calls⟩ := by
  simp [luaInsert, World.insertSlot]

/-- Without arguments the call is not of a function the script named. -/
theorem luajitRedisPcall_nil :
    luajitRedisPcall rt call ⟨[], base, breached, lua, host, calls⟩ =
      .aborted "lua_pcall of a slot beyond the stack"
        ⟨[.boolean true], base, breached, lua, host, calls⟩ := by
  simp only [luajitRedisPcall, LuaM.bind_apply, luaGetTop_apply, Outcome.andThen_done,
    luaPush_apply, World.push_mk, luaInsert_bottom]
  rfl

/-- With arguments it is. -/
theorem luajitRedisPcall_call :
    luajitRedisPcall rt call ⟨arguments.reverse ++ [callee], base, breached, lua, host, calls⟩ =
      match protectedCall call callee arguments
          ⟨arguments.reverse ++ [callee], base, breached, lua, host, calls⟩ with
      | .done results final => .done (.boolean true :: results)
          { final with frame := results.reverse ++ [.boolean true] }
      | .raised error final => catchError rt (final.push error)
      | .aborted reason final => .aborted reason final := by
  have count : (arguments.reverse ++ [callee]).length = arguments.length + 1 := by simp
  have frame := @protectedCall_frame _ call callee arguments
    ⟨arguments.reverse ++ [callee], base, breached, lua, host, calls⟩
  simp only [luajitRedisPcall, LuaM.bind_apply, luaGetTop_apply, Outcome.andThen_done,
    luaPush_apply, World.push_mk, luaInsert_bottom, count, Nat.add_sub_cancel,
    if_neg (Nat.succ_ne_zero _), luaPCall_protected]
  cases ended : protectedCall call callee arguments
      ⟨arguments.reverse ++ [callee], base, breached, lua, host, calls⟩ with
  | done results final =>
      rw [ended] at frame
      have bottom : final.frame = [.boolean true] := frame
      simp [luaReturnAll, bottom]
  | raised error final => rfl
  | aborted reason final => rfl

/-- What is returned for an error depends on what reading its `err` field gives. -/
theorem catchError_apply (error : Value) :
    catchError rt ⟨[error, .boolean true], base, breached, lua, host, calls⟩ =
      if error.isTable then
        match lua.fetch rt calls error (.string (bytes "err")) with
        | (.ok err, lua, calls) =>
            .done (.boolean false :: if err.isString then [err] else [error, err])
              ⟨(if err.isString then [err] else [err, error]) ++ [.boolean false], base, breached,
                lua, host, calls⟩
        | (.error other, lua, calls) => .raised other ⟨[error], base, breached, lua, host, calls⟩
      else .done [.boolean false, error] ⟨[error, .boolean false], base, breached, lua, host, calls⟩ := by
  have removed : luaRemove 1 ⟨[error, .boolean true], base, breached, lua, host, calls⟩ =
      .done () ⟨[error], base, breached, lua, host, calls⟩ := by simp
  simp only [catchError, LuaM.bind_apply, removed, Outcome.andThen_done, luaValue_apply,
    World.get_neg_one, World.stack_mk, List.cons_append, List.getD_cons_zero, LuaM.ite_apply]
  by_cases isTable : error.isTable
  · simp only [if_pos isTable, luaGetField, LuaM.bind_apply, luaValue_apply, Outcome.andThen_done,
      World.get_neg_one, World.stack_mk, List.cons_append, List.getD_cons_zero, luaIndex_fetch]
    cases lua.fetch rt calls error (.string (bytes "err")) with
    | mk answer rest =>
        cases answer with
        | error other => rfl
        | ok err =>
            by_cases isString : err.isString
            · simp [isString, luaReturnAll]
            · simp [isString, luaReturnAll, World.insertSlot]
  · simp [isTable, luaReturnAll]

/-- An error is returned unwrapped unless it is a table without a text in its `err` field. -/
theorem catchError_returns_iff {error : Value} :
    (catchError rt ⟨[error, .boolean true], base, breached, lua, host, calls⟩).Returns
        [.boolean false, unwrapped rt lua calls error] ↔
      (error.isTable → (errText rt lua calls error).isSome) := by
  rw [catchError_apply, unwrapped, errText]
  by_cases isTable : error.isTable
  · simp only [isTable, if_true, forall_const]
    cases lua.fetch rt calls error (.string (bytes "err")) with
    | mk answer rest =>
        cases answer with
        | error other => simp [Outcome.Returns]
        | ok err =>
            cases err with
            | string text => simp [Outcome.Returns, Value.isString, Value.type]
            | number quantity =>
                refine iff_of_false ?_ (by simp)
                rintro ⟨final, done⟩
                simp [Value.isString, Value.type] at done
                rw [← done.1] at isTable
                cases isTable
            | _ => simp [Outcome.Returns, Value.isString, Value.type]
  · simp [isTable, Outcome.Returns]

end

/-- The replacement is Lua's `pcall` with unwrapped errors exactly when there is something to
call and every table raised has a text in its `err` field. -/
theorem luajitRedisPcall_isPcall_iff {σ : Type} (rt : Runtime)
    (call : FuncRef → List Value → LuaM σ (List Value)) (world : World σ) :
    IsPcall rt call world ↔ RaisesUnwrappable rt call world := by
  obtain ⟨frame, base, breached, lua, host, calls⟩ := world
  unfold IsPcall RaisesUnwrappable
  cases reversed : frame.reverse with
  | nil =>
      obtain rfl : frame = [] := List.reverse_eq_nil_iff.mp reversed
      refine iff_of_false ?_ id
      rintro ⟨error, final, raised⟩
      rw [luajitRedisPcall_nil] at raised
      cases raised
  | cons callee arguments =>
      obtain rfl : frame = arguments.reverse ++ [callee] := by
        rw [← List.reverse_cons, ← reversed, List.reverse_reverse]
      have run := @luajitRedisPcall_call _ rt call callee arguments base breached lua host calls
      have frame := @protectedCall_frame _ call callee arguments
        ⟨arguments.reverse ++ [callee], base, breached, lua, host, calls⟩
      dsimp only
      cases ended : protectedCall call callee arguments
          ⟨arguments.reverse ++ [callee], base, breached, lua, host, calls⟩ with
      | done results final =>
          rw [ended] at run
          refine iff_of_true ⟨_, run⟩ fun error final raised => ?_
          cases raised
      | raised error final =>
          rw [ended] at run frame
          have bottom : final.frame = [.boolean true] := frame
          have pushed : final.push error = ⟨[error, .boolean true], final.base, final.breached,
              final.lua, final.host, final.metaCalls⟩ := by rw [World.push, bottom]
          dsimp only at run ⊢
          rw [run, pushed, catchError_returns_iff]
          constructor
          · intro readable other last raised
            cases raised
            exact readable
          · exact fun readable => readable error final rfl
      | aborted reason final =>
          exact iff_of_true trivial fun error final raised => nomatch raised

/-- A function that raises an empty table. -/
def raisesTable : FuncRef → List Value → LuaM Unit (List Value) := fun _ _ world =>
  .raised (.table world.lua.heap.next) (world.setHeap (world.lua.heap.alloc .empty))

/-- For a table that is no server error there is a third result. -/
theorem raised_table_not_alone : ¬ ∀ (call : FuncRef → List Value → LuaM Unit (List Value))
    (world : World Unit), world.frame ≠ [] → IsPcall .plain call world := by
  intro isPcall
  have readable := (luajitRedisPcall_isPcall_iff .plain raisesTable
    ⟨[.function (.native "error")], [], false, luaLNewstate, (), []⟩).mp
      (isPcall _ _ (List.cons_ne_nil _ _))
  exact absurd (readable _ _ rfl rfl) (by decide +kernel)

end ValkeyLuajit
