import ValkeyLuajit.Function.Ownership

/-!
# Reading named arguments

While every metamethod raises, reading an entry of the argument table depends on the entry
and the heap alone. What it comes to is said by `entryReading`, and the loop over the table
reads the entries one by one, in the order in which `lua_next` visits them.
-/

namespace ValkeyLuajit

open Lua

/-- Every metamethod raises an error. -/
def Lua.Runtime.MetamethodsRaise (rt : Runtime) : Prop :=
  ∀ n handler arguments heap, ∃ error, rt.callMeta n handler arguments heap = .error error

/-- An entry of a table: a key with its value. -/
abbrev Entry := Sigma fun _ : Value => Value

/-- What reading the elements of a flags table comes to. -/
inductive FlagsReading where
  | mask (flags : Nat)
  | unknown
  | raises
  | endless
deriving DecidableEq

/-- The elements from index `j` on, after these flags. -/
def flagsReading (rt : Runtime) (lua : State) (table : Value) : Nat → Nat → Nat → FlagsReading
  | 0, _, _ => .endless
  | rounds + 1, j, flags =>
      match lua.lookup table (.number (.finite j)) with
      | .value element =>
          if element.isNil then .mask flags
          else if !element.isString then .unknown
          else match findFlag (element.text rt) with
            | none => .unknown
            | some flag => flagsReading rt lua table rounds (j + 1) (flags ||| flag)
      | .call _ _ => .raises
      | .error _ => .raises

/-- The fields of a pending function that hold strings. -/
inductive StringField where
  | name
  | desc
deriving DecidableEq

/-- The arguments that have a name of their own. -/
inductive NamedField where
  | string (field : StringField)
  | callback
  | flags
deriving DecidableEq

/-- The argument a key is taken for. -/
def namedField (rt : Runtime) (key : Value) : Option NamedField :=
  if !key.isString then none
  else if strcasecmp (key.text rt) (bytes "function_name") then some (.string .name)
  else if strcasecmp (key.text rt) (bytes "description") then some (.string .desc)
  else if strcasecmp (key.text rt) (bytes "callback") then some .callback
  else if strcasecmp (key.text rt) (bytes "flags") then some .flags
  else none

/-- What reading an entry comes to: a field gets a value, or the call is refused, possibly
with the field set to `NULL`, or it raises an error. -/
inductive EntryReading where
  | text (field : StringField) (content : Bytes)
  | noText (field : StringField)
  | callback
  | flags (mask : Nat)
  | refused
  | raises
  | endless
deriving DecidableEq

def entryReading (rt : Runtime) (fuel : Nat) (lua : State) (entry : Entry) : EntryReading :=
  match namedField rt entry.1 with
  | none => .refused
  | some (.string field) =>
      if entry.2.isString then .text field (entry.2.text rt) else .noText field
  | some .callback => if entry.2.isFunction then .callback else .refused
  | some .flags =>
      if !entry.2.isTable then .refused
      else match flagsReading rt lua entry.2 fuel 1 0 with
        | .mask flags => .flags flags
        | .unknown => .refused
        | .raises => .raises
        | .endless => .endless

namespace PendingFunc

def getString (pf : PendingFunc) : StringField → Option ModuleString
  | .name => pf.name
  | .desc => pf.desc

def setString (pf : PendingFunc) (field : StringField) (str : Option ModuleString) :
    PendingFunc :=
  match field with
  | .name => { pf with name := str }
  | .desc => { pf with desc := str }

end PendingFunc

/-- What was read so far: the pending function, the strings that were made for it and to
which it does not point any more, and how many objects were made. -/
structure ReadSoFar where
  pf : PendingFunc
  lost : List Nat
  allocated : Nat

namespace ReadSoFar

/-- A field is set to `NULL`. -/
def drop (read : ReadSoFar) (field : StringField) : ReadSoFar where
  pf := read.pf.setString field none
  lost := read.lost ++ ((read.pf.getString field).map ModuleString.id).toList
  allocated := read.allocated

/-- A field is set to a new string. -/
def take (read : ReadSoFar) (field : StringField) (content : Bytes) : ReadSoFar where
  pf := read.pf.setString field (some ⟨read.allocated, content⟩)
  lost := read.lost ++ ((read.pf.getString field).map ModuleString.id).toList
  allocated := read.allocated + 1

end ReadSoFar

/-- What reading all entries comes to. -/
inductive ArgsReading where
  | complete (read : ReadSoFar)
  | refused (read : ReadSoFar)
  | raises (read : ReadSoFar)
  | endless

/-- The entries are read in this order. -/
def readEntries {α : Type} (reading : α → EntryReading) : List α → ReadSoFar → ArgsReading
  | [], read => .complete read
  | entry :: entries, read =>
      match reading entry with
      | .text field content => readEntries reading entries (read.take field content)
      | .noText field => .refused (read.drop field)
      | .callback =>
          readEntries reading entries { read with pf := { read.pf with hasCallback := true } }
      | .flags mask => readEntries reading entries { read with pf := { read.pf with flags := mask } }
      | .refused => .refused read
      | .raises => .raises read
      | .endless => .endless

/-- How reading flags ends; the stack is as it was. -/
def FlagsReading.Ends (world : World LoadHost) :
    FlagsReading → Outcome LoadHost (Option Nat) → Prop
  | .mask flags, outcome => outcome = .done (some flags) world
  | .unknown, outcome => outcome = .done none world
  | .raises, outcome =>
      ∃ error calls, outcome = .raised error { world with metaCalls := calls }
  | .endless, outcome => ∃ reason final, outcome = .aborted reason final

/-- How reading an entry ends. In the world `after` the value is popped. -/
def EntryReading.Ends (pf : PendingFunc) (after : World LoadHost) :
    EntryReading → Outcome LoadHost (Option String × PendingFunc) → Prop
  | .text field content, outcome =>
      outcome = .done (none, pf.setString field (some ⟨after.host.allocated, content⟩))
        (after.setHost { after.host with allocated := after.host.allocated + 1 })
  | .noText field, outcome => ∃ err final,
      outcome = .done (some err, pf.setString field none) final ∧ final.host = after.host
  | .callback, outcome => outcome = .done (none, { pf with hasCallback := true }) after
  | .flags mask, outcome => outcome = .done (none, { pf with flags := mask }) after
  | .refused, outcome => ∃ err final,
      outcome = .done (some err, pf) final ∧ final.host = after.host
  | .raises, outcome => ∃ error final, outcome = .raised error final ∧ final.host = after.host
  | .endless, outcome => ∃ reason final, outcome = .aborted reason final

/-- How the loop over the entries ends. It pops the key it began with. -/
def ArgsReading.Ends (after : World LoadHost) :
    ArgsReading → Outcome LoadHost (Option String × PendingFunc) → Prop
  | .complete read, outcome => outcome =
      .done (none, read.pf) (after.setHost { after.host with allocated := read.allocated })
  | .refused read, outcome => ∃ err final, outcome = .done (some err, read.pf) final ∧
      final.host = { after.host with allocated := read.allocated }
  | .raises read, outcome => ∃ error final, outcome = .raised error final ∧
      final.host = { after.host with allocated := read.allocated }
  | .endless, outcome => ∃ reason final, outcome = .aborted reason final

/-- The host after a call that is refused: what the pending function points to is freed, and
so is its record. -/
def LoadHost.refuse (host : LoadHost) (read : ReadSoFar) : LoadHost :=
  { host with
    allocated := read.allocated
    freed := host.freed ++ (read.pf.strings ++ [host.allocated]) }

/-- How a call of `server.register_function` with named arguments ends. -/
def ArgsReading.Registers (host : LoadHost) : ArgsReading → Outcome LoadHost Unit → Prop
  | .complete read, outcome =>
      if read.pf.name.isSome ∧ read.pf.hasCallback then
        ∃ final, outcome = .done () final ∧ final.host =
          { host with functions := host.functions ++ [read.pf], allocated := read.allocated }
      else ∃ error final, outcome = .raised error final ∧ final.host = host.refuse read
  | .refused read, outcome =>
      ∃ error final, outcome = .raised error final ∧ final.host = host.refuse read
  | .raises read, outcome => ∃ error final, outcome = .raised error final ∧
      final.host = { host with allocated := read.allocated }
  | .endless, outcome => ∃ reason final, outcome = .aborted reason final

/-- As a call begins: the record is made. -/
def ReadSoFar.start (record : Nat) : ReadSoFar :=
  ⟨⟨record, none, none, false, 0⟩, [], record + 1⟩

section

variable {rt : Runtime} {fuel : Nat} {lua : State}

theorem readFlagsLoop_reading (raise : rt.MetamethodsRaise) (rounds j flags : Nat)
    (table : Value) (frame base : List Value) (breached : Bool) (host : LoadHost)
    (calls : List (FuncRef × State)) :
    (flagsReading rt lua table rounds j flags).Ends
      ⟨table :: frame, base, breached, lua, host, calls⟩
      (readFlagsLoop rt rounds j flags ⟨table :: frame, base, breached, lua, host, calls⟩) := by
  induction rounds generalizing j flags with
  | zero => exact ⟨_, _, rfl⟩
  | succ rounds inductionHypothesis =>
      rw [flagsReading]
      cases found : lua.lookup table (.number (.finite j)) with
      | value element =>
          by_cases absent : element.isNil
          · simp [absent, FlagsReading.Ends, readFlagsLoop, luaGetTable, luaIndex, found]
          · by_cases isText : element.isString
            · cases named : findFlag (element.text rt) with
              | none =>
                  simp [absent, isText, named, FlagsReading.Ends, readFlagsLoop, luaGetTable,
                    luaIndex, found]
              | some flag =>
                  have rest := inductionHypothesis (j + 1) (flags ||| flag)
                  simpa [absent, isText, named, readFlagsLoop, luaGetTable, luaIndex, found]
                    using rest
            · simp [absent, isText, FlagsReading.Ends, readFlagsLoop, luaGetTable, luaIndex, found]
      | call handler holder =>
          obtain ⟨error, raised⟩ := raise calls.length handler [holder, .number (.finite j)] lua.heap
          refine ⟨error, calls ++ [(handler, lua)], ?_⟩
          simp [readFlagsLoop, luaGetTable, luaIndex, found, callMetamethod, raised]
      | error message =>
          refine ⟨.string message, calls, ?_⟩
          simp [readFlagsLoop, luaGetTable, luaIndex, found]

theorem readNamedArg_reading (raise : rt.MetamethodsRaise) (pf : PendingFunc) (entry : Entry)
    (frame base : List Value) (breached : Bool) (host : LoadHost)
    (calls : List (FuncRef × State)) :
    (entryReading rt fuel lua entry).Ends pf
      ⟨entry.1 :: frame, base, breached, lua, host, calls⟩
      (readNamedArg rt fuel pf
        ⟨entry.2 :: entry.1 :: frame, base, breached, lua, host, calls⟩) := by
  obtain ⟨key, value⟩ := entry
  unfold entryReading namedField
  by_cases isKey : key.isString
  · by_cases isName : strcasecmp (key.text rt) (bytes "function_name")
    · by_cases isText : value.isString <;>
        simp [isKey, isName, isText, EntryReading.Ends, readNamedArg, luajitGetStringObject,
          PendingFunc.setString]
    · by_cases isDesc : strcasecmp (key.text rt) (bytes "description")
      · by_cases isText : value.isString <;>
          simp [isKey, isName, isDesc, isText, EntryReading.Ends, readNamedArg,
            luajitGetStringObject, PendingFunc.setString]
      · by_cases isCallback : strcasecmp (key.text rt) (bytes "callback")
        · by_cases callable : value.isFunction <;>
            simp [isKey, isName, isDesc, isCallback, callable, EntryReading.Ends, readNamedArg]
        · by_cases isFlags : strcasecmp (key.text rt) (bytes "flags")
          · by_cases isTable : value.isTable
            · have read := @readFlagsLoop_reading rt lua raise fuel 1 0 value (key :: frame) base
                breached host calls
              cases reading : flagsReading rt lua value fuel 1 0 with
              | mask mask =>
                  simp only [reading, FlagsReading.Ends] at read
                  simp [isKey, isName, isDesc, isCallback, isFlags, isTable,
                    EntryReading.Ends, readNamedArg, luajitRegisterFunctionReadFlags, read]
              | unknown =>
                  simp only [reading, FlagsReading.Ends] at read
                  simp [isKey, isName, isDesc, isCallback, isFlags, isTable,
                    EntryReading.Ends, readNamedArg, luajitRegisterFunctionReadFlags, read]
              | raises =>
                  rw [reading] at read
                  obtain ⟨error, later, raised⟩ := read
                  simp [isKey, isName, isDesc, isCallback, isFlags, isTable,
                    EntryReading.Ends, readNamedArg, luajitRegisterFunctionReadFlags, raised]
              | endless =>
                  rw [reading] at read
                  obtain ⟨reason, final, aborted⟩ := read
                  simp [isKey, isName, isDesc, isCallback, isFlags, isTable,
                    EntryReading.Ends, readNamedArg, luajitRegisterFunctionReadFlags, aborted]
            · simp [isKey, isName, isDesc, isCallback, isFlags, isTable, EntryReading.Ends,
                readNamedArg]
          · simp [isKey, isName, isDesc, isCallback, isFlags, EntryReading.Ends, readNamedArg]
  · simp [isKey, EntryReading.Ends, readNamedArg]

variable (rt fuel) in
/-- What the loop does after an entry. -/
def afterEntry (rounds : Nat) :
    Option String × PendingFunc → LuaM LoadHost (Option String × PendingFunc)
  | (some err, pf) => pure (some err, pf)
  | (none, pf) => readNamedArgsLoop rt fuel rounds pf

variable (rt) in
/-- What is done after the loop. -/
def afterEntries : Option String × PendingFunc → LuaM LoadHost (Bool × PendingFunc)
  | (some err, pf) => readArgsError rt err pf
  | (none, pf) =>
      if pf.name.isNone then
        readArgsError rt "server.register_function must get a function name argument" pf
      else if !pf.hasCallback then
        readArgsError rt "server.register_function must get a callback argument" pf
      else pure (true, pf)

/-- The loop reads the entries that `lua_next` has not visited yet, one by one. -/
theorem readNamedArgsLoop_reading (raise : rt.MetamethodsRaise) {addr : Addr}
    {rest before : List Entry} {key : Value} {rounds : Nat} {read : ReadSoFar}
    (parts : (lua.heap.cells addr).entries.entries = before ++ rest)
    (next : (lua.heap.cells addr).next key = some rest.head?) (enough : rest.length < rounds)
    (frame base : List Value) (breached : Bool) (host : LoadHost)
    (calls : List (FuncRef × State)) (allocated : read.allocated = host.allocated) :
    (readEntries (entryReading rt fuel lua) rest read).Ends
      ⟨.table addr :: frame, base, breached, lua, host, calls⟩
      (readNamedArgsLoop rt fuel rounds read.pf
        ⟨key :: .table addr :: frame, base, breached, lua, host, calls⟩) := by
  induction rest generalizing before key rounds read host with
  | nil =>
      obtain ⟨rounds, rfl⟩ := Nat.exists_eq_add_one_of_ne_zero (Nat.ne_of_gt enough)
      simp [readEntries, ArgsReading.Ends, readNamedArgsLoop, luaNext, State.tableOf, next, allocated]
  | cons entry rest inductionHypothesis =>
      obtain ⟨rounds, rfl⟩ := Nat.exists_eq_add_one_of_ne_zero (Nat.ne_of_gt (Nat.zero_lt_of_lt enough))
      have one := @readNamedArg_reading rt fuel lua raise read.pf entry (.table addr :: frame) base
        breached host calls
      have parts' : (lua.heap.cells addr).entries.entries = (before ++ [entry]) ++ rest := by
        rw [parts]
        simp
      have later := fun (read : ReadSoFar) (host : LoadHost)
          (allocated : read.allocated = host.allocated) =>
        @inductionHypothesis (before ++ [entry]) entry.1 rounds read parts'
          (Table.next_append parts) (Nat.lt_of_succ_lt_succ enough) host allocated
      have opened : readNamedArgsLoop rt fuel (rounds + 1) read.pf
          ⟨key :: .table addr :: frame, base, breached, lua, host, calls⟩ =
            (readNamedArg rt fuel read.pf
              ⟨entry.2 :: entry.1 :: .table addr :: frame, base, breached, lua, host, calls⟩).andThen
              (afterEntry rt fuel rounds) := by
        simp [readNamedArgsLoop, luaNext, State.tableOf, next]
        congr 1
        funext answer
        obtain ⟨_ | err, pf⟩ := answer <;> rfl
      have unchanged : host = { host with allocated := read.allocated } := by rw [allocated]
      rw [opened, readEntries]
      cases reading : entryReading rt fuel lua entry with
      | text field content =>
          simp only [reading, EntryReading.Ends] at one
          rw [one, ← allocated]
          exact later (read.take field content) _ rfl
      | noText field =>
          simp only [reading, EntryReading.Ends] at one
          obtain ⟨err, final, ended, same⟩ := one
          rw [ended]
          exact ⟨err, final, rfl, same.trans unchanged⟩
      | callback =>
          simp only [reading, EntryReading.Ends] at one
          rw [one]
          exact later { read with pf := { read.pf with hasCallback := true } } host allocated
      | flags mask =>
          simp only [reading, EntryReading.Ends] at one
          rw [one]
          exact later { read with pf := { read.pf with flags := mask } } host allocated
      | refused =>
          simp only [reading, EntryReading.Ends] at one
          obtain ⟨err, final, ended, same⟩ := one
          rw [ended]
          exact ⟨err, final, rfl, same.trans unchanged⟩
      | raises =>
          simp only [reading, EntryReading.Ends] at one
          obtain ⟨error, final, raised, same⟩ := one
          rw [raised]
          exact ⟨error, final, rfl, same.trans unchanged⟩
      | endless =>
          simp only [reading, EntryReading.Ends] at one
          obtain ⟨reason, final, aborted⟩ := one
          rw [aborted]
          exact ⟨reason, final, rfl⟩

/-- A refused call frees what the pending function points to, and then its record. -/
theorem readArgsError_refuse (message : String) (pf : PendingFunc) (record : Nat)
    (world : World LoadHost) :
    ∃ error final, ((readArgsError rt message pf world).andThen fun answer =>
        if !answer.1 then free (some record) >>= fun _ => luajitError
        else addPending answer.2) = .raised error final ∧
      final.host = { world.host with freed := world.host.freed ++ (pf.strings ++ [record]) } := by
  obtain ⟨frame, base, breached, lua, host, calls⟩ := world
  refine ⟨.table lua.heap.next, ((readArgsError rt message pf
    ⟨frame, base, breached, lua, host, calls⟩).andThen fun answer =>
      if !answer.1 then free (some record) >>= fun _ => luajitError
      else addPending answer.2).world, ?_, ?_⟩ <;>
    simp [readArgsError, luajitPushError, luajitPushErrorBuff_apply, PendingFunc.strings]

/-- A call while a library is loaded whose only argument is a table reads the entries of the
table and keeps the pending function, or frees it. -/
theorem register_reading (raise : rt.MetamethodsRaise) {addr : Addr}
    (enough : (lua.heap.cells addr).entries.entries.length < fuel)
    (loading : lua.registry registryLoadCtxName = .lightuserdata loadCtxPointer)
    (base : List Value) (breached : Bool) (host : LoadHost) (calls : List (FuncRef × State)) :
    (readEntries (entryReading rt fuel lua) (lua.heap.cells addr).entries.entries
      (.start host.allocated)).Registers host
      (luajitFunctionRegisterFunction rt fuel
        ⟨[.table addr], base, breached, lua, host, calls⟩) := by
  have looped := @readNamedArgsLoop_reading rt fuel lua raise addr
    (lua.heap.cells addr).entries.entries [] .nil fuel (.start host.allocated) rfl
    (Table.next_nil _) enough [] base breached { host with allocated := host.allocated + 1 } calls rfl
  generalize readEntries (entryReading rt fuel lua) (lua.heap.cells addr).entries.entries
    (.start host.allocated) = reading at looped ⊢
  have opened : luajitFunctionRegisterFunction rt fuel
      ⟨[.table addr], base, breached, lua, host, calls⟩ =
        (luajitRegisterFunctionReadNamedArgs rt fuel (ReadSoFar.start host.allocated).pf
          ⟨[.table addr], base, breached, lua, { host with allocated := host.allocated + 1 },
            calls⟩).andThen fun answer =>
              if !answer.1 then free (some host.allocated) >>= fun _ => luajitError
              else addPending answer.2 := by
    simp [luajitFunctionRegisterFunction, luajitGetFromRegistry, loading, loadCtxPointer,
      luajitRegisterFunctionReadArgs, Value.isNil, Value.type, ReadSoFar.start]
  have named : luajitRegisterFunctionReadNamedArgs rt fuel (ReadSoFar.start host.allocated).pf
      ⟨[.table addr], base, breached, lua, { host with allocated := host.allocated + 1 },
        calls⟩ =
      (readNamedArgsLoop rt fuel fuel (ReadSoFar.start host.allocated).pf
        ⟨[.nil, .table addr], base, breached, lua,
          { host with allocated := host.allocated + 1 }, calls⟩).andThen (afterEntries rt) := by
    simp only [luajitRegisterFunctionReadNamedArgs, LuaM.bind_apply, luaValue_apply,
      Outcome.andThen_done, World.get_one, LuaM.ite_apply, luaPush_apply, World.push_mk]
    refine (if_neg Bool.false_ne_true).trans ?_
    congr 1
    funext answer
    obtain ⟨_ | err, pf⟩ := answer <;> rfl
  rw [opened, named]
  cases reading with
  | complete read =>
      simp only [ArgsReading.Ends] at looped
      rw [looped, ArgsReading.Registers]
      have refused (message : String) := @readArgsError_refuse rt message read.pf host.allocated
        ⟨[.table addr], base, breached, lua, { host with allocated := read.allocated }, calls⟩
      cases isName : read.pf.name with
      | none =>
          rw [if_neg (by simp)]
          simpa [afterEntries, isName, World.setHost, LoadHost.refuse] using
            refused "server.register_function must get a function name argument"
      | some name =>
          cases callable : read.pf.hasCallback with
          | false =>
              rw [if_neg (by simp)]
              simpa [afterEntries, isName, callable, World.setHost, LoadHost.refuse] using
                refused "server.register_function must get a callback argument"
          | true =>
              rw [if_pos ⟨rfl, rfl⟩]
              simp [afterEntries, isName, callable]
  | refused read =>
      obtain ⟨err, final, ended, same⟩ := looped
      rw [ended]
      obtain ⟨error, last, raised, freed⟩ :=
        @readArgsError_refuse rt err read.pf host.allocated final
      exact ⟨error, last, raised, freed.trans (by rw [same]; rfl)⟩
  | raises read =>
      obtain ⟨error, final, raised, same⟩ := looped
      rw [raised]
      exact ⟨error, final, rfl, same⟩
  | endless =>
      obtain ⟨reason, final, aborted⟩ := looped
      rw [aborted]
      exact ⟨reason, final, rfl⟩

end

end ValkeyLuajit
