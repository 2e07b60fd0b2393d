import ValkeyLuajit.Script.Command

/-!
# What a call of a command leaves behind

On the way out of `luajitServerGenericCommand` the static flag should be as it was and
everything the function obtained should be freed. Two ways out miss this: the one that
detects a recursive call, and the error that a null raises when it would become a key.
-/

namespace ValkeyLuajit

open Lua

/-- The value is a table with a text under `err`. -/
def IsErrorTable (heap : Heap) (value : Value) : Prop :=
  ∃ addr text, value = .table addr ∧ (heap.cells addr).rawGet (.string (bytes "err")) = .string text

/-- A table whose keys are others is no error table. -/
theorem not_isErrorTable_of_fields {heap : Heap} {addr : Addr} {fields : List (Value × Value)}
    (table : heap.cells addr = .ofFields fields)
    (absent : .string (bytes "err") ∉ fields.map Prod.fst) : ¬ IsErrorTable heap (.table addr) := by
  rintro ⟨other, text, same, found⟩
  cases same
  rw [table, Table.rawGet_ofFields_of_notMem absent] at found
  cases found

theorem not_isErrorTable_of_field {heap : Heap} {addr : Addr} {name : String} {content : Value}
    (table : heap.cells addr = .ofFields [stringField name content])
    (other : bytes "err" ≠ bytes name) : ¬ IsErrorTable heap (.table addr) :=
  not_isErrorTable_of_fields table (by simpa [stringField] using other)

/-- Only an error reply becomes an error table. -/
theorem Encodes.isErrorTable_iff {resp : Nat} {heap : Heap} {reply : CallReply} {first last : Addr}
    {value : Value} (encodes : Encodes resp heap.cells reply first last value) :
    IsErrorTable heap value ↔ reply.errorText.isSome := by
  cases reply with
  | error text =>
      obtain ⟨rfl, -, table⟩ := encodes
      exact ⟨fun _ => rfl, fun _ => ⟨first, _, rfl, by rw [table, errorReplyFields_err]⟩⟩
  | unknown => exact encodes.elim
  | null | arrayNull =>
      obtain ⟨rfl, -⟩ := encodes
      split <;> simp [IsErrorTable, CallReply.errorText]
  | string _ | integer _ | bool _ =>
      obtain ⟨rfl, -⟩ := encodes
      simp [IsErrorTable, CallReply.errorText]
  | array elements =>
      obtain ⟨rfl, values, table, -⟩ := encodes
      simp [CallReply.errorText, not_isErrorTable_of_fields table arrayFields_keys]
  | simpleString _ | double _ | bigNumber _ =>
      obtain ⟨rfl, -, table⟩ := encodes
      have other := not_isErrorTable_of_field table (by decide)
      simp [CallReply.errorText, other]
  | verbatim _ _ =>
      obtain ⟨rfl, -, table, -⟩ := encodes
      have other := not_isErrorTable_of_field table (by decide)
      simp [CallReply.errorText, other]
  | map _ | set _ =>
      obtain ⟨rfl, table, -⟩ := encodes
      have other := not_isErrorTable_of_field table (by decide)
      simp [CallReply.errorText, other]

section Arguments

variable {fpconv : Number → Bytes}

variable (fpconv) in
theorem argumentText_isSome (argument : Value) :
    (argumentText fpconv argument).isSome = argument.isString := by
  cases argument <;> rfl

/-- Every argument has a text exactly when all are strings or numbers. -/
theorem argumentTexts_length_eq_iff {arguments : List Value} :
    (argumentTexts fpconv arguments).length = arguments.length ↔
      ∀ argument ∈ arguments, argument.isString := by
  induction arguments with
  | nil => simp [argumentTexts]
  | cons argument rest inductionHypothesis =>
      have known := argumentText_isSome fpconv argument
      unfold argumentTexts
      cases text : argumentText fpconv argument with
      | none =>
          rw [text] at known
          simp [← known]
      | some text' =>
          rw [text] at known
          simp [← known, inductionHypothesis]

@[simp] theorem numberStrings_ids (first : Nat) (texts : List Bytes) :
    (numberStrings first texts).map ModuleString.id = List.range' first texts.length := by
  induction texts generalizing first with
  | nil => rfl
  | cons text rest inductionHypothesis => simp [numberStrings, inductionHypothesis, List.range'_succ]

@[simp] theorem numberStrings_length (first : Nat) (texts : List Bytes) :
    (numberStrings first texts).length = texts.length := by
  rw [← List.length_map ModuleString.id, numberStrings_ids, List.length_range']

/-- The arguments lie in the frame, the first one at the bottom. -/
theorem argument_eq {world : World CommandHost} {j : Nat}
    (inside : j < world.frame.reverse.length) :
    world.get ((j : Int) + 1) = world.frame.reverse[j] := by
  have positive : ¬ ((j : Int) + 1 < 0) := by omega
  have position : world.slot ((j : Int) + 1) = world.frame.length - 1 - j := by
    rw [World.slot, if_neg positive]
    omega
  have within : world.frame.length - 1 - j < world.frame.length := by
    rw [List.length_reverse] at inside
    omega
  have found : (world.frame ++ world.base)[world.frame.length - 1 - j]? =
      some world.frame.reverse[j] := by
    rw [List.getElem?_append_left within, List.getElem?_eq_getElem within, List.getElem_reverse]
  rw [World.get, position, World.stack, List.getD_eq_getElem?_getD, found, Option.getD_some]

/-- The loop makes a string of every argument before the first that has no text. -/
theorem argvLoop_apply {rounds j : Nat} {world : World CommandHost}
    (whole : j + rounds = world.frame.length) :
    argvLoop fpconv rounds j world =
      .done (numberStrings world.host.strings (argumentTexts fpconv (world.frame.reverse.drop j)))
        (world.setHost { world.host with strings := world.host.strings +
          (argumentTexts fpconv (world.frame.reverse.drop j)).length }) := by
  induction rounds generalizing j world with
  | zero =>
      have done : world.frame.reverse.drop j = [] := List.drop_eq_nil_of_le (by simp; omega)
      simp [argvLoop, done, argumentTexts, numberStrings, World.setHost]
  | succ rounds inductionHypothesis =>
      have inside : j < world.frame.reverse.length := by
        rw [List.length_reverse]
        omega
      have here : world.get (j + 1) = world.frame.reverse[j] := argument_eq inside
      rw [List.drop_eq_getElem_cons inside]
      simp only [argvLoop, LuaM.bind_apply, luaValue_apply, Outcome.andThen_done, here, argumentTexts]
      cases argumentText fpconv world.frame.reverse[j] with
      | none => simp [numberStrings, World.setHost]
      | some text =>
          let stored := world.setHost { world.host with strings := world.host.strings + 1 }
          have others : j + 1 + rounds = stored.frame.length := by
            simp only [stored, World.setHost]
            omega
          have rest := inductionHypothesis others
          simp only [stored, World.setHost] at rest
          simp [numberStrings, World.setHost, rest]
          omega

end Arguments

section Command

variable (rt : Runtime) (fpconv : Number → Bytes)

section Known

variable (frame base : List Value) (breached : Bool) (lua : State) (host : CommandHost)
  (calls : List (FuncRef × State))

/-- Pushing an error leaves an error table on the top. -/
theorem luajitPushErrorBuff_isErrorTable (errBuffer : Bytes) :
    ∃ heap, luajitPushErrorBuff rt errBuffer ⟨frame, base, breached, lua, host, calls⟩ =
        .done () ⟨.table lua.heap.next :: frame, base, breached, { lua with heap := heap }, host,
          calls⟩ ∧
      IsErrorTable heap (.table lua.heap.next) := by
  refine ⟨_, luajitPushErrorBuff_apply .., lua.heap.next, errorBuffText errBuffer, rfl, ?_⟩
  rw [Heap.write_self, Table.rawGet_rawSet_self _ _ (by simp)]

/-- The error of a refused command becomes an error table. -/
theorem luajitProcessReplyError_isErrorTable (errno : Nat) (err : Bytes) :
    ∃ heap, luajitProcessReplyError rt errno err ⟨frame, base, breached, lua, host, calls⟩ =
        .done () ⟨.table lua.heap.next :: frame, base, breached, { lua with heap := heap }, host,
          calls⟩ ∧
      IsErrorTable heap (.table lua.heap.next) := by
  let text := (rewrittenError errno err).getD err
  refine ⟨(lua.heap.alloc .empty).write lua.heap.next (.ofFields (errorReplyFields text)), ?_,
    lua.heap.next, errorBuffText text, rfl, ?_⟩
  · simp [luajitProcessReplyError, luajitPushErrorBuff_apply, luaSetTable_bare, errorReplyFields,
      stringField, text, ← Table.empty_store, Heap.write]
  · rw [Heap.write_self, errorReplyFields_err]

/-- Arguments that are all strings or numbers become strings. -/
theorem luajitArgsToServerArgv_converts (nonempty : frame ≠ [])
    (texts : ∀ argument ∈ frame, argument.isString) :
    luajitArgsToServerArgv rt fpconv ⟨frame, base, breached, lua, host, calls⟩ =
      .done (some (numberStrings host.strings (argumentTexts fpconv frame.reverse)))
        ⟨[], base, breached, lua, { host with strings := host.strings + frame.length }, calls⟩ := by
  have all : (argumentTexts fpconv frame.reverse).length = frame.length := by
    rw [← @List.length_reverse _ frame]
    exact argumentTexts_length_eq_iff.mpr fun argument member =>
      texts argument (List.mem_reverse.mp member)
  have present : frame.length ≠ 0 := by simpa using nonempty
  have loop : argvLoop fpconv frame.length 0 ⟨frame, base, breached, lua, host, calls⟩ = _ :=
    argvLoop_apply (Nat.zero_add _)
  simp only [luajitArgsToServerArgv, LuaM.bind_apply, luaGetTop_apply, Outcome.andThen_done,
    LuaM.ite_apply, if_neg present, loop, luaPop_apply, List.drop_zero]
  simp [all, World.pop, World.setHost]

/-- Otherwise what was made is freed and an error table pushed. -/
theorem luajitArgsToServerArgv_fails
    (unfit : frame = [] ∨ ∃ argument ∈ frame, ¬ argument.isString) :
    ∃ heap count, luajitArgsToServerArgv rt fpconv ⟨frame, base, breached, lua, host, calls⟩ =
        .done none ⟨[.table lua.heap.next], base, breached, { lua with heap := heap },
          { host with
            strings := host.strings + count
            freedStrings := host.freedStrings ++ List.range' host.strings count }, calls⟩ ∧
      IsErrorTable heap (.table lua.heap.next) := by
  by_cases blank : frame = []
  · subst blank
    obtain ⟨heap, pushed, shape⟩ := luajitPushErrorBuff_isErrorTable rt [] base breached lua
      host calls (bytes "Please specify at least one argument for this call")
    refine ⟨heap, 0, ?_, shape⟩
    simp [luajitArgsToServerArgv, luajitPushError, pushed]
  · have present : frame.length ≠ 0 := by simpa using blank
    have part : (argumentTexts fpconv frame.reverse).length ≠ frame.length := by
      rw [← @List.length_reverse _ frame, Ne, argumentTexts_length_eq_iff]
      obtain ⟨argument, member, odd⟩ := unfit.resolve_left blank
      exact fun every => odd (every argument (List.mem_reverse.mpr member))
    have loop : argvLoop fpconv frame.length 0 ⟨frame, base, breached, lua, host, calls⟩ = _ :=
      argvLoop_apply (Nat.zero_add _)
    let count := (argumentTexts fpconv frame.reverse).length
    obtain ⟨heap, pushed, shape⟩ := luajitPushErrorBuff_isErrorTable rt [] base breached lua
      { host with
        strings := host.strings + count
        freedStrings := host.freedStrings ++ List.range' host.strings count } calls
      (bytes "ERR Command arguments must be strings or integers")
    refine ⟨heap, count, ?_, shape⟩
    simp only [luajitArgsToServerArgv, LuaM.bind_apply, luaGetTop_apply, Outcome.andThen_done,
      LuaM.ite_apply, if_neg present, loop, luaPop_apply, List.drop_zero]
    simp only [numberStrings_length, ne_eq, part, not_false_eq_true, if_true,
      freeLuajitServerArgv_apply, Outcome.andThen_done, numberStrings_ids, luajitPushError]
    simp [World.pop, World.setHost, count, pushed]

/-- A null is the key of an entry, before anything else ends the conversion. It begins in
an empty frame: the arguments are off the stack by then. -/
def ServerAnswer.MeetsNullKey (answer : ServerAnswer) (resp : Nat) : Prop :=
  answer.errno = 0 ∧ answer.reply.fault resp 0 = some .nilIndex

/-- The C data once the reply is freed. -/
def CommandHost.settle (host : CommandHost) (reply : Nat) : CommandHost :=
  { host with inuse := host.inuse - 1, freedReplies := host.freedReplies ++ [reply] }

/-- The end of the function, for `server.call` and `server.pcall` alike: a null as a key
raises at once; otherwise the process is aborted, or the reply is freed and one value
left, which `server.call` raises if it is an error table. -/
theorem finishCommand_cases (answer : ServerAnswer) (resp reply : Nat) :
    (answer.MeetsNullKey resp ∧ ∀ raiseError, ∃ error final,
      finishCommand rt answer resp reply raiseError ⟨[], base, breached, lua, host, calls⟩ =
        .raised error final ∧ final.host = host) ∨
    ¬ answer.MeetsNullKey resp ∧
      ((∀ raiseError, ∃ reason final,
        finishCommand rt answer resp reply raiseError ⟨[], base, breached, lua, host, calls⟩ =
          .aborted reason final) ∨
      ∃ value final, final.host = host.settle reply ∧ final.get (-1) = value ∧
        (IsErrorTable final.lua.heap value ↔ answer.reply.errorText.isSome) ∧
        ∀ raiseError,
          finishCommand rt answer resp reply raiseError ⟨[], base, breached, lua, host, calls⟩ =
            if raiseError ∧ answer.reply.errorText.isSome then .raised value final
            else .done () final) := by
  by_cases failed : answer.errno = 0
  · have converts : Converts CommandHost rt resp answer.reply := callReplyToLuaType_ends answer.reply
    have converted := converts ⟨[], base, breached, lua, host, calls⟩
    rw [List.length_nil] at converted
    cases fault : answer.reply.fault resp 0 with
    | none =>
        rw [fault] at converted
        obtain ⟨final, run, -, value, heap, rfl, -, encodes⟩ := converted
        refine .inr ⟨fun met => ?_, .inr ⟨value, ⟨[value], base, breached, { lua with heap := heap },
          host.settle reply, calls⟩, rfl, rfl, encodes.isErrorTable_iff, fun raiseError => ?_⟩⟩
        · exact absurd met.2 (by simp [fault])
        · cases raiseError <;> cases error : answer.reply.errorText.isSome <;>
            simp [finishCommand, failed, run, error, CommandHost.settle]
    | some reason =>
        rw [fault] at converted
        cases reason with
        | nilIndex =>
            obtain ⟨final, run, heap, altered⟩ := converted
            refine .inl ⟨⟨failed, fault⟩, fun raiseError =>
              ⟨.string (bytes "table index is nil"), final, ?_, ?_⟩⟩
            · simp [finishCommand, failed, run]
            · exact congrArg Core.host altered
        | stackLimit =>
            obtain ⟨final, run⟩ := converted
            refine .inr ⟨fun met => ?_, .inl fun raiseError => ⟨stackLimitPanic, final, ?_⟩⟩
            · exact absurd met.2 (by simp [fault])
            · simp [finishCommand, failed, run]
        | unexpected =>
            obtain ⟨final, run⟩ := converted
            refine .inr ⟨fun met => ?_, .inl fun raiseError => ⟨"0", final, ?_⟩⟩
            · exact absurd met.2 (by simp [fault])
            · simp [finishCommand, failed, run]
  · refine .inr ⟨fun met => failed met.1, ?_⟩
    cases error : answer.reply.errorText with
    | none =>
        refine .inl fun raiseError => ⟨"reply_type == VALKEYMODULE_REPLY_ERROR",
          ⟨[], base, breached, lua, host, calls⟩, ?_⟩
        simp [finishCommand, failed, error]
    | some text =>
        obtain ⟨heap, pushed, shape⟩ := luajitProcessReplyError_isErrorTable rt [] base breached lua
          host calls answer.errno text
        refine .inr ⟨.table lua.heap.next, ⟨[.table lua.heap.next], base, breached,
          { lua with heap := heap }, host.settle reply, calls⟩, rfl, rfl, ?_, fun raiseError => ?_⟩
        · exact ⟨fun _ => rfl, fun _ => shape⟩
        · cases raiseError <;> simp [finishCommand, failed, error, pushed, CommandHost.settle]

end Known

/-- What was made from `first` on and below `last` was freed in between, once each. -/
def FreedOnce (first last : Nat) (before after : List Nat) : Prop :=
  ∃ freed, after = before ++ freed ∧ freed.Perm (List.range' first (last - first))

/-- The flag is as it was and everything obtained in between was freed once. -/
structure CommandHost.Tidy (before after : CommandHost) : Prop where
  inuse : after.inuse = before.inuse
  strings : FreedOnce before.strings after.strings before.freedStrings after.freedStrings
  replies : FreedOnce before.replies after.replies before.freedReplies after.freedReplies

/-- However the function is left, by returning or by an error, it leaves no residue. -/
def LeavesNoResidue (before : CommandHost) : Outcome CommandHost Unit → Prop
  | .done _ final | .raised _ final => before.Tidy final.host
  | .aborted _ _ => True

/-- The function raised. -/
def Raises (outcome : Outcome CommandHost Unit) : Prop :=
  ∃ error final, outcome = .raised error final

/-- The function returned an error table. -/
def ReturnsErrorTable (outcome : Outcome CommandHost Unit) : Prop :=
  ∃ final, outcome = .done () final ∧ IsErrorTable final.lua.heap (final.get (-1))

/-- All arguments, and at least one, are strings or numbers. -/
def ArgumentsConvert (arguments : List Value) : Prop :=
  arguments ≠ [] ∧ ∀ argument ∈ arguments, argument.isString

/-- Once the arguments are converted, the flag is clear and no null becomes a key. -/
def CommandSettles (answer : ServerAnswer) (start : World CommandHost) : Prop :=
  HasRunCtx start.lua → ArgumentsConvert start.frame →
    start.host.inuse = 0 ∧ ¬ answer.MeetsNullKey start.host.rctx.resp

variable {rt fpconv} {answer : ServerAnswer} {frame base : List Value} {breached : Bool}
  {lua : State} {host : CommandHost} {calls : List (FuncRef × State)}

theorem FreedOnce.refl (first : Nat) (freed : List Nat) : FreedOnce first first freed freed :=
  ⟨[], by simp⟩

theorem FreedOnce.range (first count : Nat) (freed : List Nat) :
    FreedOnce first (first + count) freed (freed ++ List.range' first count) :=
  ⟨_, rfl, by simp⟩

/-- The user names looked at: one or none. -/
def usernames (hasUsername : Bool) : List Unit := if hasUsername then [()] else []

theorem lookAtUsername_apply (hasUsername : Bool) (start : World CommandHost) :
    lookAtUsername hasUsername start = .done () (start.setHost { start.host with
      strings := start.host.strings + (usernames hasUsername).length
      freedStrings := start.host.freedStrings ++
        (usernames hasUsername).map fun _ => start.host.strings }) := by
  cases hasUsername <;> simp [lookAtUsername, usernames, World.setHost]

/-- Without a run context the process is aborted. -/
theorem luajitServerGenericCommand_dead {start : World CommandHost} (dead : ¬ HasRunCtx start.lua)
    (raiseError : Bool) : ∃ reason final,
      luajitServerGenericCommand rt fpconv answer raiseError start = .aborted reason final := by
  rcases requireRunCtx_cases start with ⟨live, -⟩ | ⟨-, reason, final, stops, -⟩
  · exact absurd live dead
  · exact ⟨reason, final, by simp [luajitServerGenericCommand, stops]⟩

/-- Arguments that do not convert give an error table, which `server.call` raises. -/
theorem luajitServerGenericCommand_unfit (live : HasRunCtx lua) (unfit : ¬ ArgumentsConvert frame) :
    ∃ final : World CommandHost, host.Tidy final.host ∧
      IsErrorTable final.lua.heap (final.get (-1)) ∧ ∀ raiseError,
        luajitServerGenericCommand rt fpconv answer raiseError
            ⟨frame, base, breached, lua, host, calls⟩ =
          if raiseError then .raised (final.get (-1)) final else .done () final := by
  have fails : frame = [] ∨ ∃ argument ∈ frame, ¬ argument.isString := by
    rw [ArgumentsConvert, not_and_or, not_not] at unfit
    exact unfit.imp id fun some' => by simpa using some'
  obtain ⟨heap, count, run, shape⟩ :=
    luajitArgsToServerArgv_fails rt fpconv frame base breached lua host calls fails
  refine ⟨⟨[.table lua.heap.next], base, breached, { lua with heap := heap },
      { host with
        strings := host.strings + count
        freedStrings := host.freedStrings ++ List.range' host.strings count }, calls⟩,
    ⟨rfl, .range _ count _, .refl _ _⟩, shape, fun raiseError => ?_⟩
  have passes : requireRunCtx (⟨frame, base, breached, lua, host, calls⟩ : World CommandHost) = _ :=
    requireRunCtx_of_live live
  cases raiseError <;> simp [luajitServerGenericCommand, passes, run]

/-- A recursive call gives an error table in any case, and the strings stay. -/
theorem luajitServerGenericCommand_recursive (live : HasRunCtx lua)
    (converts : ArgumentsConvert frame) (busy : host.inuse ≠ 0) :
    ∃ final : World CommandHost, final.host = { host with strings := host.strings + frame.length } ∧
      IsErrorTable final.lua.heap (final.get (-1)) ∧ ∀ raiseError,
        luajitServerGenericCommand rt fpconv answer raiseError
            ⟨frame, base, breached, lua, host, calls⟩ = .done () final := by
  have run := luajitArgsToServerArgv_converts rt fpconv frame base breached lua host calls
    converts.1 converts.2
  obtain ⟨heap, pushed, shape⟩ := luajitPushErrorBuff_isErrorTable rt [] base breached lua
    { host with strings := host.strings + frame.length } calls (bytes recursionWarning)
  refine ⟨⟨[.table lua.heap.next], base, breached, { lua with heap := heap },
    { host with strings := host.strings + frame.length }, calls⟩, rfl, shape, fun raiseError => ?_⟩
  have passes : requireRunCtx (⟨frame, base, breached, lua, host, calls⟩ : World CommandHost) = _ :=
    requireRunCtx_of_live live
  simp [luajitServerGenericCommand, passes, run, busy, luajitPushError, pushed]

/-- Otherwise the server is asked, with the flag set and every string freed. -/
theorem luajitServerGenericCommand_asks (live : HasRunCtx lua) (converts : ArgumentsConvert frame)
    (clear : host.inuse = 0) :
    ∃ asked : CommandHost, asked.inuse = 1 ∧ asked.replies = host.replies + 1 ∧
      asked.freedReplies = host.freedReplies ∧
      FreedOnce host.strings asked.strings host.freedStrings asked.freedStrings ∧ ∀ raiseError,
        luajitServerGenericCommand rt fpconv answer raiseError
            ⟨frame, base, breached, lua, host, calls⟩ =
          finishCommand rt answer host.rctx.resp host.replies raiseError
            ⟨[], base, breached, lua, asked, calls⟩ := by
  have run := luajitArgsToServerArgv_converts rt fpconv frame base breached lua host calls
    converts.1 converts.2
  have passes : requireRunCtx (⟨frame, base, breached, lua, host, calls⟩ : World CommandHost) = _ :=
    requireRunCtx_of_live live
  have all : (argumentTexts fpconv frame.reverse).length = frame.length := by
    rw [← @List.length_reverse _ frame]
    exact argumentTexts_length_eq_iff.mpr fun argument member =>
      converts.2 argument (List.mem_reverse.mp member)
  let texts := (numberStrings host.strings (argumentTexts fpconv frame.reverse)).map
    ModuleString.text
  refine ⟨{ host with
      inuse := 1
      strings := host.strings + frame.length + (usernames answer.hasUsername).length
      freedStrings := host.freedStrings ++
        ((usernames answer.hasUsername).map fun _ => host.strings + frame.length) ++
        List.range' host.strings frame.length
      replies := host.replies + 1
      requests := host.requests ++
        [⟨cString (texts.headD []), callFormat answer.hasUsername host.rctx, texts.tail⟩] },
    rfl, rfl, rfl, ?_, fun raiseError => ?_⟩
  · refine ⟨_, List.append_assoc _ _ _, ?_⟩
    cases answer.hasUsername with
    | false => simp [usernames]
    | true =>
        have count : host.strings + frame.length + 1 - host.strings = frame.length + 1 := by omega
        simp only [usernames, if_true, List.map_cons, List.map_nil, List.singleton_append,
          List.length_singleton]
        rw [count, List.range'_concat, Nat.one_mul]
        exact (List.perm_append_singleton _ _).symm
  · simp [luajitServerGenericCommand, passes, run, clear, all, lookAtUsername_apply, texts]

/-- What stays was not freed. -/
theorem FreedOnce.eq_of_same {first count : Nat} {freed : List Nat}
    (once : FreedOnce first (first + count) freed freed) : count = 0 := by
  obtain ⟨none', same, all⟩ := once
  have blank : none' = [] := List.self_eq_append_right.mp same
  subst blank
  simpa using all.length_eq.symm

/-- Once the server was asked, the rest leaves no residue unless a null becomes a key. -/
theorem finishCommand_settles {asked : CommandHost} {reply resp : Nat}
    {run : Bool → Outcome CommandHost Unit}
    (ends : ∀ raiseError, run raiseError = finishCommand rt answer resp reply raiseError
      ⟨[], base, breached, lua, asked, calls⟩)
    (inuse : asked.inuse = 1) (clear : host.inuse = 0) (replies : asked.replies = host.replies + 1)
    (obtained : reply = host.replies) (freed : asked.freedReplies = host.freedReplies)
    (strings : FreedOnce host.strings asked.strings host.freedStrings asked.freedStrings) :
    ((∀ raiseError, LeavesNoResidue host (run raiseError)) ∧
        (Raises (run true) ↔ ReturnsErrorTable (run false))) ↔
      ¬ answer.MeetsNullKey resp := by
  rcases finishCommand_cases rt base breached lua asked calls answer resp reply with
    ⟨met, raised⟩ | ⟨unmet, aborted | ⟨value, final, settled, top, shape, ended⟩⟩
  · refine iff_of_false (fun holds => ?_) (not_not_intro met)
    obtain ⟨error, final, here, same⟩ := raised true
    have residue := holds.1 true
    rw [ends, here] at residue
    have flag := residue.inuse
    rw [same, inuse, clear] at flag
    cases flag
  · refine iff_of_true ⟨fun raiseError => ?_, ?_⟩ unmet
    · obtain ⟨reason, final, here⟩ := aborted raiseError
      rw [ends, here]
      trivial
    · obtain ⟨reason, final, here⟩ := aborted true
      obtain ⟨other, last, there⟩ := aborted false
      rw [ends, ends, here, there]
      simp [Raises, ReturnsErrorTable]
  · have tidy : host.Tidy final.host := by
      rw [settled]
      refine ⟨by simp [CommandHost.settle, inuse, clear], strings, [reply], ?_, ?_⟩
      · simp [CommandHost.settle, freed]
      · simp [CommandHost.settle, replies, obtained]
    refine iff_of_true ⟨fun raiseError => ?_, ?_⟩ unmet
    · rw [ends, ended]
      split
      · exact tidy
      · exact tidy
    · rw [ends, ends, ended, ended]
      simp only [Bool.false_eq_true, false_and, if_false, true_and]
      have reports : ReturnsErrorTable (Outcome.done () final) ↔ answer.reply.errorText.isSome := by
        rw [← shape, ← top]
        constructor
        · rintro ⟨other, same, table⟩
          cases same
          exact table
        · exact fun table => ⟨final, rfl, table⟩
      rw [reports]
      split
      · exact iff_of_true ⟨value, final, rfl⟩ ‹_›
      · refine iff_of_false ?_ ‹_›
        rintro ⟨error, other, same⟩
        cases same

/-- Calling a command leaves no residue, and `server.call` raises what `server.pcall`
returns as an error table, exactly when the arguments do not convert, or the flag is
clear and no null becomes the key of an entry. -/
theorem server_command_leaves_no_residue_iff (rt : Runtime) (fpconv : Number → Bytes)
    (answer : ServerAnswer) (start : World CommandHost) :
    ((∀ raiseError, LeavesNoResidue start.host
          (luajitServerGenericCommand rt fpconv answer raiseError start)) ∧
        (Raises (luajitRedisCallCommand rt fpconv answer start) ↔
          ReturnsErrorTable (luajitRedisPCallCommand rt fpconv answer start))) ↔
      CommandSettles answer start := by
  obtain ⟨frame, base, breached, lua, host, calls⟩ := start
  by_cases live : HasRunCtx lua
  · by_cases converts : ArgumentsConvert frame
    · by_cases clear : host.inuse = 0
      · obtain ⟨asked, inuse, replies, freed, strings, ends⟩ :=
          luajitServerGenericCommand_asks live converts clear
        have settles : _ ↔ ¬ answer.MeetsNullKey host.rctx.resp :=
          finishCommand_settles ends inuse clear replies rfl freed strings
        exact settles.trans ⟨fun unmet _ _ => ⟨clear, unmet⟩, fun all => (all live converts).2⟩
      · obtain ⟨final, stale, shape, ends⟩ :=
          luajitServerGenericCommand_recursive live converts clear
        refine iff_of_false (fun holds => ?_) fun all => clear (all live converts).1
        have residue := holds.1 true
        rw [ends] at residue
        have strings := residue.strings
        rw [stale] at strings
        exact converts.1 (List.length_eq_zero_iff.mp strings.eq_of_same)
    · obtain ⟨final, tidy, shape, ends⟩ := luajitServerGenericCommand_unfit live converts
      refine iff_of_true ⟨fun raiseError => ?_, ?_⟩ fun _ fits => absurd fits converts
      · rw [ends]
        split
        · exact tidy
        · exact tidy
      · rw [luajitRedisCallCommand, luajitRedisPCallCommand, ends, ends]
        exact iff_of_true ⟨_, final, rfl⟩ ⟨final, rfl, shape⟩
  · have stops (raiseError : Bool) : ∃ reason final,
        luajitServerGenericCommand rt fpconv answer raiseError
            ⟨frame, base, breached, lua, host, calls⟩ = .aborted reason final :=
      luajitServerGenericCommand_dead live raiseError
    refine iff_of_true ⟨fun raiseError => ?_, ?_⟩ fun alive => absurd alive live
    · obtain ⟨reason, final, here⟩ := stops raiseError
      rw [here]
      trivial
    · obtain ⟨reason, final, here⟩ := stops true
      obtain ⟨other, last, there⟩ := stops false
      refine iff_of_false ?_ ?_
      · rintro ⟨error, ended, raised⟩
        cases here.symm.trans raised
      · rintro ⟨ended, returned, -⟩
        cases there.symm.trans returned

/-- A script that calls a command in RESP3. -/
def commandStart : World CommandHost where
  frame := [.string (bytes "SMEMBERS")]
  base := []
  breached := false
  lua := {
    heap := default
    globals := 0
    registry := fun _ => .lightuserdata callCtxPointer
    hidden := fun _ => .empty
    hook := none }
  host := { rctx := ⟨1, 1, .eval, 3, 3, false⟩, inuse := 0 }
  metaCalls := []

/-- A set with a null in it leaves the flag set. -/
theorem null_in_set_leaves_flag_set :
    ¬ ((∀ raiseError, LeavesNoResidue commandStart.host
          (luajitServerGenericCommand .plain (fun _ => []) ⟨.set [.null], 0, false⟩ raiseError
            commandStart)) ∧
        (Raises (luajitRedisCallCommand .plain (fun _ => []) ⟨.set [.null], 0, false⟩ commandStart) ↔
          ReturnsErrorTable
            (luajitRedisPCallCommand .plain (fun _ => []) ⟨.set [.null], 0, false⟩ commandStart))) := by
  intro holds
  have residue := (holds.1 true)
  have flag := CommandHost.Tidy.inuse residue
  cases flag

end Command

end ValkeyLuajit
