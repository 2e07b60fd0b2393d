import ValkeyLuajit.Script.Reply
import ValkeyLuajit.Script.Unprotected

/-!
# What a value is converted to

While no metamethod runs, the conversion of a value reads the state and sends tokens.
`renderValue` says which ones, as a function of the state, the value and the height of
the stack; it has no answer when an error table cannot be read without a metamethod.
`luajitReplyToServerReply_renders` is the refinement: with an answer, the conversion
sends just these tokens, consumes the value and changes nothing else.
-/

namespace ValkeyLuajit

open Lua

/-- The value an indexing operation finds without running Lua code. -/
def Lua.Lookup.quiet : Lookup → Option Value
  | .value found => some found
  | _ => none

/-- The bytes, or the number, that stand in a field. -/
def Lua.Value.doubleOf : Value → Number
  | .number value => value
  | _ => .nan

section Render

variable (lua : State)

/-- The field of an error table, if it is read without a metamethod. -/
def quietField (object : Value) (name : String) : Option Value :=
  (lua.lookup object (.string (bytes name))).quiet

/-- The token of an error table. -/
def renderError (object : Value) : Option Token := do
  let _ ← quietField lua object "source"
  let _ ← quietField lua object "line"
  let ignored ← quietField lua object "ignore_error_stats_update"
  some (.error (cString (lua.field object "err").stringBytes)
    (!(ignored.isBoolean && ignored.toBoolean)))

/-- The token of a verbatim table. -/
def verbatimToken (object : Value) : Option Token :=
  let inner := lua.field object "verbatim_string"
  if inner.type = .table ∧ (lua.field inner "format").type = .string ∧
      (lua.field inner "string").type = .string then
    some (.verbatim (lua.field inner "string").stringBytes
      (cString (lua.field inner "format").stringBytes))
  else none

/-- The elements of an array from index `j` on, up to the first nil. -/
def arrayElements (table : Table) : Nat → Nat → List Value
  | 0, _ => []
  | rounds + 1, j =>
      let element := table.rawGet (.number (.finite j))
      if element.type = .nil then [] else element :: arrayElements table rounds (j + 1)

section Containers

variable (render : Nat → Value → Option (List Token)) (height : Nat)

/-- The tokens of the entries of a map. -/
def renderEntries : List (Sigma fun _ : Value => Value) → Option (List Token)
  | [] => some []
  | entry :: rest => do
      let key ← render (height + 4) entry.1
      let value ← render (height + 3) entry.2
      let others ← renderEntries rest
      some (key ++ value ++ others)

/-- The tokens of values that lie one above the other's table. -/
def renderAll (above : Nat) : List Value → Option (List Token)
  | [] => some []
  | value :: rest => do
      let tokens ← render (height + above) value
      let others ← renderAll above rest
      some (tokens ++ others)

/-- The tokens of a table, by the first field that tells its kind. -/
def renderTable (object : Value) : Option (List Token) :=
  if (lua.field object "err").type = .string then (renderError lua object).map fun token => [token]
  else if (lua.field object "ok").type = .string then
    some [.simple (lineText (lua.field object "ok").stringBytes)]
  else if (lua.field object "double").type = .number then
    some [.double (lua.field object "double").doubleOf]
  else if (lua.field object "big_number").type = .string then
    some [.bigNumber (lineText (lua.field object "big_number").stringBytes)]
  else match verbatimToken lua object with
    | some token => some [token]
    | none =>
        if (lua.field object "map").type = .table then
          let entries := (lua.tableOf (lua.field object "map")).entries.entries
          (renderEntries render height entries).map fun tokens =>
            .openMap :: tokens ++ [.closeMap entries.length]
        else if (lua.field object "set").type = .table then
          let entries := (lua.tableOf (lua.field object "set")).entries.entries
          (renderAll render height 3 (entries.map Sigma.fst)).map fun tokens =>
            .openSet :: tokens ++ [.closeSet entries.length]
        else
          let table := lua.tableOf object
          let elements := arrayElements table (table.entries.entries.length + 1) 1
          (renderAll render height 1 elements).map fun tokens =>
            .openArray :: tokens ++ [.closeArray elements.length]

end Containers

/-- The tokens of a value that lies on the top of a stack of this height. -/
def renderValue (resp : Nat) : Nat → Nat → Value → Option (List Token)
  | 0, _, _ => none
  | fuel + 1, height, value =>
      if height + 4 ≤ maxCStack then
        match value with
        | .string text => some [.bulk text]
        | .boolean flag =>
            some [if resp = 2 then (if flag then .integer 1 else .null) else .bool flag]
        | .number number => some [.integer number.toLongLong]
        | .table _ | .hidden _ => renderTable lua (renderValue resp fuel) height value
        | _ => some [.null]
      else some [.error (bytes "ERR reached lua stack limit") true]

end Render

/-- Tokens are sent. -/
def CallHost.send (host : CallHost) (tokens : List Token) : CallHost :=
  { host with trace := host.trace ++ tokens.map .sent }

@[simp] theorem CallHost.send_nil (host : CallHost) : host.send [] = host := by simp [send]

@[simp] theorem CallHost.send_send (host : CallHost) (first second : List Token) :
    (host.send first).send second = host.send (first ++ second) := by simp [send]

section Tests

variable {rt : Runtime} (frame base : List Value) (breached : Bool) (lua : State)
  (host : CallHost) (calls : List (FuncRef × State)) (object : Value)

/-- A field that is there is found without its table's metatable. -/
theorem lookup_field {lua : State} {object : Value} {name : String}
    (present : lua.field object name ≠ .nil) :
    lua.lookup object (.string (bytes name)) = .value (lua.field object name) := by
  cases object with
  | table addr => exact Heap.index_of_present present
  | hidden other => rfl
  | _ => exact absurd (Table.rawGet_empty _) present

theorem fetch_quiet {lua : State} {object key found : Value}
    (quiet : (lua.lookup object key).quiet = some found) :
    lua.fetch rt calls object key = (.ok found, lua, calls) := by
  unfold State.fetch
  cases looked : lua.lookup object key with
  | value other =>
      rw [looked] at quiet
      cases quiet
      rfl
  | call handler holder => rw [looked] at quiet; cases quiet
  | error message => rw [looked] at quiet; cases quiet

/-- A field of the expected type is handled. -/
theorem onField_hit {name : String} {type : LuaType} {handle : Value → LuaM CallHost Unit}
    {otherwise : LuaM CallHost Unit} (found : (lua.field object name).type = type) :
    onField name type handle otherwise ⟨object :: frame, base, breached, lua, host, calls⟩ =
      handle (lua.field object name)
        ⟨lua.field object name :: object :: frame, base, breached, lua, host, calls⟩ := by
  have raw : (lua.tableOf object).rawGet (.string (bytes name)) = lua.field object name := rfl
  simp [onField, raw, found]

/-- Otherwise the next test is made on the same stack. -/
theorem onField_miss {name : String} {type : LuaType} {handle : Value → LuaM CallHost Unit}
    {otherwise : LuaM CallHost Unit} (other : (lua.field object name).type ≠ type) :
    onField name type handle otherwise ⟨object :: frame, base, breached, lua, host, calls⟩ =
      otherwise ⟨object :: frame, base, breached, lua, host, calls⟩ := by
  have raw : (lua.tableOf object).rawGet (.string (bytes name)) = lua.field object name := rfl
  simp [onField, raw, other]

/-- An error table that can be read without a metamethod. -/
theorem replyErrorTable_renders {token : Token} (isText : (lua.field object "err").type = .string)
    (rendered : renderError lua object = some token) (found : Value) :
    replyErrorTable rt found ⟨found :: object :: frame, base, breached, lua, host, calls⟩ =
      .done () ⟨frame, base, breached, lua, host.send [token], calls⟩ := by
  obtain ⟨source, sourceQuiet, rendered⟩ := Option.bind_eq_some_iff.mp rendered
  obtain ⟨line, lineQuiet, rendered⟩ := Option.bind_eq_some_iff.mp rendered
  obtain ⟨ignored, ignoredQuiet, rendered⟩ := Option.bind_eq_some_iff.mp rendered
  cases rendered
  obtain ⟨text, isErr⟩ : ∃ text, lua.field object "err" = .string text := by
    cases shape : lua.field object "err" <;> rw [shape] at isText <;> cases isText
    exact ⟨_, rfl⟩
  have present : lua.field object "err" ≠ .nil := by simp [isErr]
  have msgQuiet : (lua.lookup object (.string (bytes "err"))).quiet = some (.string text) := by
    rw [lookup_field present, isErr]
    rfl
  have noText : object.isString = false := by
    cases object <;> first | rfl | exact absurd (Table.rawGet_empty _) present
  have isString : (Value.string text).isString = true := rfl
  have content : (Value.string text).text rt = text := rfl
  simp [replyErrorTable, luajitExtractErrorInformation, noText, readErrorField_fetch,
    luaGetField_fetch, fetch_quiet _ msgQuiet, fetch_quiet _ sourceQuiet, fetch_quiet _ lineQuiet,
    fetch_quiet _ ignoredQuiet, isErr, Value.stringBytes, isString, content, CallHost.send]

/-- A verbatim table. -/
theorem replyVerbatim_hit {otherwise : LuaM CallHost Unit} {token : Token}
    (rendered : verbatimToken lua object = some token) :
    replyVerbatim otherwise ⟨object :: frame, base, breached, lua, host, calls⟩ =
      .done () ⟨frame, base, breached, lua, host.send [token], calls⟩ := by
  unfold verbatimToken at rendered
  dsimp only at rendered
  split at rendered
  · rename_i shape
    obtain ⟨isTable, isFormat, isText⟩ := shape
    cases rendered
    simp only [State.field] at isTable isFormat isText
    simp [replyVerbatim, State.field, isTable, isFormat, isText, CallHost.send]
  · cases rendered

/-- Otherwise the next test is made on the same stack. -/
theorem replyVerbatim_miss {otherwise : LuaM CallHost Unit}
    (other : verbatimToken lua object = none) :
    replyVerbatim otherwise ⟨object :: frame, base, breached, lua, host, calls⟩ =
      otherwise ⟨object :: frame, base, breached, lua, host, calls⟩ := by
  unfold verbatimToken at other
  dsimp only at other
  split at other
  · cases other
  · rename_i shape
    by_cases isTable : (lua.field object "verbatim_string").type = .table
    · by_cases isFormat : (lua.field (lua.field object "verbatim_string") "format").type = .string
      · have isText : (lua.field (lua.field object "verbatim_string") "string").type ≠ .string :=
          fun isText => shape ⟨isTable, isFormat, isText⟩
        simp only [State.field] at isTable isFormat isText
        simp [replyVerbatim, isTable, isFormat, isText]
      · simp only [State.field] at isTable isFormat
        simp [replyVerbatim, isTable, isFormat]
    · simp only [State.field] at isTable
      simp [replyVerbatim, isTable]

end Tests

/-- Converting the value on the top sends what `render` says, and consumes the value. -/
def Sends (lua : State) (convert : LuaM CallHost Unit)
    (render : Nat → Value → Option (List Token)) : Prop :=
  ∀ {frame base : List Value} {value : Value} {tokens : List Token} (breached : Bool)
    (host : CallHost) (calls : List (FuncRef × State)),
    render (frame.length + base.length + 1) value = some tokens →
    convert ⟨value :: frame, base, breached, lua, host, calls⟩ =
      .done () ⟨frame, base, breached, lua, host.send tokens, calls⟩

section Loops

variable {lua : State} {convert : LuaM CallHost Unit}
  {render : Nat → Value → Option (List Token)} (sends : Sends lua convert render)
  {frame base : List Value} {breached : Bool} {calls : List (FuncRef × State)}
include sends

/-- The map loop converts the entries behind the key on the top. -/
theorem replyMapLoop_renders {inner key : Value}
    {rest before : List (Sigma fun _ : Value => Value)} {fuel : Nat} {tokens : List Token}
    (host : CallHost) (parts : (lua.tableOf inner).entries.entries = before ++ rest)
    (here : (lua.tableOf inner).next key = some rest.head?) (enough : rest.length < fuel)
    (rendered : renderEntries render (frame.length + base.length) rest = some tokens) :
    replyMapLoop convert fuel ⟨key :: inner :: frame, base, breached, lua, host, calls⟩ =
      .done rest.length ⟨inner :: frame, base, breached, lua, host.send tokens, calls⟩ := by
  induction rest generalizing fuel key before tokens host with
  | nil =>
      obtain ⟨fuel, rfl⟩ := Nat.exists_eq_add_one_of_ne_zero (Nat.ne_of_gt enough)
      cases rendered
      simp [replyMapLoop, luaNext, here]
  | cons entry rest inductionHypothesis =>
      obtain ⟨fuel, rfl⟩ := Nat.exists_eq_add_one_of_ne_zero (Nat.ne_of_gt (Nat.zero_lt_of_lt enough))
      obtain ⟨first, firstRendered, rendered⟩ := Option.bind_eq_some_iff.mp rendered
      obtain ⟨second, secondRendered, rendered⟩ := Option.bind_eq_some_iff.mp rendered
      obtain ⟨others, othersRendered, rendered⟩ := Option.bind_eq_some_iff.mp rendered
      cases rendered
      have keySent := @sends (entry.2 :: entry.1 :: inner :: frame) base entry.1 first breached host
        calls (by simpa [Nat.add_right_comm] using firstRendered)
      have valueSent := @sends (entry.1 :: inner :: frame) base entry.2 second breached
        (host.send first) calls (by simpa [Nat.add_right_comm] using secondRendered)
      have next := inductionHypothesis ((host.send first).send second)
        (by rw [parts, List.append_cons]) (Table.next_append parts)
        (Nat.lt_of_succ_lt_succ enough) othersRendered
      simp [replyMapLoop, luaNext, here, keySent, valueSent] at next ⊢
      simp [next]

/-- The set loop converts the keys behind the one on the top. -/
theorem replySetLoop_renders {inner key : Value}
    {rest before : List (Sigma fun _ : Value => Value)} {fuel : Nat} {tokens : List Token}
    (host : CallHost) (parts : (lua.tableOf inner).entries.entries = before ++ rest)
    (here : (lua.tableOf inner).next key = some rest.head?) (enough : rest.length < fuel)
    (rendered : renderAll render (frame.length + base.length) 3 (rest.map Sigma.fst) =
      some tokens) :
    replySetLoop convert fuel ⟨key :: inner :: frame, base, breached, lua, host, calls⟩ =
      .done rest.length ⟨inner :: frame, base, breached, lua, host.send tokens, calls⟩ := by
  induction rest generalizing fuel key before tokens host with
  | nil =>
      obtain ⟨fuel, rfl⟩ := Nat.exists_eq_add_one_of_ne_zero (Nat.ne_of_gt enough)
      cases rendered
      simp [replySetLoop, luaNext, here]
  | cons entry rest inductionHypothesis =>
      obtain ⟨fuel, rfl⟩ := Nat.exists_eq_add_one_of_ne_zero (Nat.ne_of_gt (Nat.zero_lt_of_lt enough))
      obtain ⟨first, firstRendered, rendered⟩ := Option.bind_eq_some_iff.mp rendered
      obtain ⟨others, othersRendered, rendered⟩ := Option.bind_eq_some_iff.mp rendered
      cases rendered
      have keySent := @sends (entry.1 :: inner :: frame) base entry.1 first breached host calls
        (by simpa [Nat.add_right_comm] using firstRendered)
      have next := inductionHypothesis (host.send first) (by rw [parts, List.append_cons])
        (Table.next_append parts) (Nat.lt_of_succ_lt_succ enough) othersRendered
      simp [replySetLoop, luaNext, here, keySent, next]

/-- The array loop converts the elements up to the first nil. -/
theorem replyArrayLoop_renders {object : Value} {rounds j : Nat} {tokens : List Token}
    (host : CallHost)
    (enough : (arrayElements (lua.tableOf object) rounds j).length < rounds)
    (rendered : renderAll render (frame.length + base.length + 1) 1
      (arrayElements (lua.tableOf object) rounds j) = some tokens) :
    replyArrayLoop convert rounds j ⟨object :: frame, base, breached, lua, host, calls⟩ =
      .done (arrayElements (lua.tableOf object) rounds j).length
        ⟨object :: frame, base, breached, lua, host.send tokens, calls⟩ := by
  induction rounds generalizing j tokens host with
  | zero => exact absurd enough (Nat.not_lt_zero _)
  | succ rounds inductionHypothesis =>
      unfold arrayElements at enough rendered ⊢
      dsimp only at enough rendered ⊢
      by_cases last : ((lua.tableOf object).rawGet (.number (.finite j))).type = .nil
      · rw [if_pos last] at rendered ⊢
        cases rendered
        simp [replyArrayLoop, last]
      · rw [if_neg last] at enough rendered ⊢
        obtain ⟨first, firstRendered, rendered⟩ := Option.bind_eq_some_iff.mp rendered
        obtain ⟨others, othersRendered, rendered⟩ := Option.bind_eq_some_iff.mp rendered
        cases rendered
        have sent := @sends (object :: frame) base _ first breached host calls
          (by simpa [Nat.add_right_comm] using firstRendered)
        have next := inductionHypothesis (host.send first) (Nat.lt_of_succ_lt_succ enough)
          othersRendered
        simp [replyArrayLoop, last, sent] at next ⊢
        simp [next]

end Loops

theorem arrayElements_present {table : Table} {rounds j i : Nat}
    (inside : i < (arrayElements table rounds j).length) :
    table.rawGet (.number (.finite (j + i : Nat))) ≠ .nil := by
  induction rounds generalizing i j with
  | zero => exact absurd inside (Nat.not_lt_zero _)
  | succ rounds inductionHypothesis =>
      unfold arrayElements at inside
      dsimp only at inside
      split at inside
      · exact absurd inside (Nat.not_lt_zero _)
      · rename_i present
        cases i with
        | zero => exact fun blank => present (by rw [Nat.add_zero] at blank; rw [blank]; rfl)
        | succ i =>
            have later := inductionHypothesis (Nat.lt_of_succ_lt_succ inside)
            rwa [Nat.add_assoc, Nat.add_comm 1] at later

/-- The elements have keys of their own, so there are no more of them than entries. -/
theorem arrayElements_length_le (table : Table) (rounds j : Nat) :
    (arrayElements table rounds j).length ≤ table.entries.entries.length := by
  let index (i : Nat) : Value := .number (.finite (i : Nat))
  have apart : Function.Injective index := by
    intro first second same
    simpa [index] using same
  have distinct : ((List.range' j (arrayElements table rounds j).length).map index).Nodup :=
    List.Nodup.map apart List.nodup_range'
  have within : (List.range' j (arrayElements table rounds j).length).map index ⊆
      table.entries.keys := by
    intro key member
    obtain ⟨i, inRange, rfl⟩ := List.mem_map.mp member
    obtain ⟨above, below⟩ := List.mem_range'_1.mp inRange
    have present : table.rawGet (index i) ≠ .nil := by
      obtain ⟨offset, rfl⟩ := Nat.exists_eq_add_of_le above
      exact arrayElements_present (Nat.lt_of_add_lt_add_left below)
    by_contra absent
    have missing : table.entries.lookup (index i) = none := AList.lookup_eq_none.mpr absent
    exact present (by rw [Table.rawGet, missing]; rfl)
  have count := (List.subperm_of_subset distinct within).length_le
  simpa [AList.keys, List.keys] using count

section Conversion

variable {rt : Runtime} {lua : State} {convert : LuaM CallHost Unit}
  {render : Nat → Value → Option (List Token)} {frame base : List Value} {breached : Bool}
  {calls : List (FuncRef × State)} {object : Value} {tokens : List Token}

/-- Handling a map. -/
theorem replyMap_renders (sends : Sends lua convert render) (host : CallHost) {inner : Value}
    (rendered : renderEntries render (frame.length + base.length + 1)
      (lua.tableOf inner).entries.entries = some tokens) :
    replyMap convert inner ⟨inner :: object :: frame, base, breached, lua, host, calls⟩ =
      .done () ⟨frame, base, breached, lua, host.send (.openMap :: tokens ++
        [.closeMap (lua.tableOf inner).entries.entries.length]), calls⟩ := by
  have entries : renderEntries render ((object :: frame).length + base.length)
      (lua.tableOf inner).entries.entries = some tokens := by
    simpa [Nat.add_right_comm] using rendered
  have loop : replyMapLoop convert ((lua.tableOf inner).entries.entries.length + 1)
      ⟨.nil :: inner :: object :: frame, base, breached, lua, host.send [.openMap], calls⟩ = _ :=
    replyMapLoop_renders sends _ (List.nil_append _).symm (Table.next_nil _) (Nat.lt_succ_self _)
      entries
  simp only [CallHost.send, List.map_cons, List.map_nil] at loop
  simp [replyMap, loopBound, loop, CallHost.send]

/-- Handling a set. -/
theorem replySet_renders (sends : Sends lua convert render) (host : CallHost) {inner : Value}
    (rendered : renderAll render (frame.length + base.length + 1) 3
      ((lua.tableOf inner).entries.entries.map Sigma.fst) = some tokens) :
    replySet convert inner ⟨inner :: object :: frame, base, breached, lua, host, calls⟩ =
      .done () ⟨frame, base, breached, lua, host.send (.openSet :: tokens ++
        [.closeSet (lua.tableOf inner).entries.entries.length]), calls⟩ := by
  have keys : renderAll render ((object :: frame).length + base.length) 3
      ((lua.tableOf inner).entries.entries.map Sigma.fst) = some tokens := by
    simpa [Nat.add_right_comm] using rendered
  have loop : replySetLoop convert ((lua.tableOf inner).entries.entries.length + 1)
      ⟨.nil :: inner :: object :: frame, base, breached, lua, host.send [.openSet], calls⟩ = _ :=
    replySetLoop_renders sends _ (List.nil_append _).symm (Table.next_nil _) (Nat.lt_succ_self _)
      keys
  simp only [CallHost.send, List.map_cons, List.map_nil] at loop
  simp [replySet, loopBound, loop, CallHost.send]

/-- Handling an array. -/
theorem replyArray_renders (sends : Sends lua convert render) (host : CallHost)
    (rendered : renderAll render (frame.length + base.length + 1) 1
      (arrayElements (lua.tableOf object) ((lua.tableOf object).entries.entries.length + 1) 1) =
        some tokens) :
    replyArray convert ⟨object :: frame, base, breached, lua, host, calls⟩ =
      .done () ⟨frame, base, breached, lua, host.send (.openArray :: tokens ++ [.closeArray
        (arrayElements (lua.tableOf object)
          ((lua.tableOf object).entries.entries.length + 1) 1).length]), calls⟩ := by
  have loop : replyArrayLoop convert ((lua.tableOf object).entries.entries.length + 1) 1
      ⟨object :: frame, base, breached, lua, host.send [.openArray], calls⟩ = _ :=
    replyArrayLoop_renders sends _ (Nat.lt_succ_of_le (arrayElements_length_le ..)) rendered
  simp only [CallHost.send, List.map_cons, List.map_nil] at loop
  simp [replyArray, loopBound, loop, CallHost.send]

/-- A table is converted as its first telling field says. -/
theorem replyTable_renders (sends : Sends lua convert render) (host : CallHost)
    (rendered : renderTable lua render (frame.length + base.length + 1) object = some tokens) :
    replyTable rt convert ⟨object :: frame, base, breached, lua, host, calls⟩ =
      .done () ⟨frame, base, breached, lua, host.send tokens, calls⟩ := by
  unfold renderTable at rendered
  unfold replyTable
  by_cases isErr : (lua.field object "err").type = .string
  · rw [if_pos isErr] at rendered
    obtain ⟨token, isToken, rfl⟩ := Option.map_eq_some_iff.mp rendered
    rw [onField_hit _ _ _ _ _ _ _ isErr]
    exact replyErrorTable_renders _ _ _ _ _ _ _ isErr isToken _
  rw [if_neg isErr] at rendered
  rw [onField_miss _ _ _ _ _ _ _ isErr]
  by_cases isOk : (lua.field object "ok").type = .string
  · rw [if_pos isOk] at rendered
    cases rendered
    rw [onField_hit _ _ _ _ _ _ _ isOk]
    simp [replyStatus, CallHost.send]
  rw [if_neg isOk] at rendered
  rw [onField_miss _ _ _ _ _ _ _ isOk]
  by_cases isDouble : (lua.field object "double").type = .number
  · rw [if_pos isDouble] at rendered
    cases rendered
    rw [onField_hit _ _ _ _ _ _ _ isDouble]
    cases lua.field object "double" <;> simp [replyDouble, CallHost.send, Value.doubleOf]
  rw [if_neg isDouble] at rendered
  rw [onField_miss _ _ _ _ _ _ _ isDouble]
  by_cases isBig : (lua.field object "big_number").type = .string
  · rw [if_pos isBig] at rendered
    cases rendered
    rw [onField_hit _ _ _ _ _ _ _ isBig]
    simp [replyBigNumber, CallHost.send]
  rw [if_neg isBig] at rendered
  rw [onField_miss _ _ _ _ _ _ _ isBig]
  cases verbatim : verbatimToken lua object with
  | some token =>
      rw [verbatim] at rendered
      cases rendered
      exact replyVerbatim_hit _ _ _ _ _ _ _ verbatim
  | none =>
      rw [verbatim] at rendered
      rw [replyVerbatim_miss _ _ _ _ _ _ _ verbatim]
      dsimp only at rendered
      by_cases isMap : (lua.field object "map").type = .table
      · rw [if_pos isMap] at rendered
        obtain ⟨parts, all, rfl⟩ := Option.map_eq_some_iff.mp rendered
        rw [onField_hit _ _ _ _ _ _ _ isMap]
        exact replyMap_renders sends host all
      rw [if_neg isMap] at rendered
      rw [onField_miss _ _ _ _ _ _ _ isMap]
      by_cases isSet : (lua.field object "set").type = .table
      · rw [if_pos isSet] at rendered
        obtain ⟨parts, all, rfl⟩ := Option.map_eq_some_iff.mp rendered
        rw [onField_hit _ _ _ _ _ _ _ isSet]
        exact replySet_renders sends host all
      rw [if_neg isSet] at rendered
      rw [onField_miss _ _ _ _ _ _ _ isSet]
      obtain ⟨parts, all, rfl⟩ := Option.map_eq_some_iff.mp rendered
      exact replyArray_renders sends host all

/-- The conversion sends the tokens `renderValue` gives, consumes the value and changes
nothing else. -/
theorem luajitReplyToServerReply_renders (rt : Runtime) (lua : State) (resp fuel : Nat) :
    Sends lua (luajitReplyToServerReply rt resp fuel) (renderValue lua resp fuel) := by
  induction fuel with
  | zero =>
      intro frame base value tokens breached host calls rendered
      cases rendered
  | succ fuel inductionHypothesis =>
      intro frame base value tokens breached host calls rendered
      have height : (value :: frame ++ base).length = frame.length + base.length + 1 := by simp
      have checked : luaCheckStackFromBottom 4 ⟨value :: frame, base, breached, lua, host, calls⟩ =
          .done (decide (frame.length + base.length + 1 + 4 ≤ maxCStack))
            ⟨value :: frame, base, breached, lua, host, calls⟩ := by
        rw [← height]
        rfl
      by_cases room : frame.length + base.length + 1 + 4 ≤ maxCStack
      · rw [decide_eq_true room] at checked
        cases value with
        | table addr =>
            simp only [renderValue, if_pos room] at rendered
            simp only [luajitReplyToServerReply, LuaM.bind_apply, luaValue_apply,
              Outcome.andThen_done, World.get_neg_one, World.stack_mk, List.cons_append,
              List.getD_cons_zero, checked, if_true]
            exact replyTable_renders inductionHypothesis host rendered
        | hidden name =>
            simp only [renderValue, if_pos room] at rendered
            simp only [luajitReplyToServerReply, LuaM.bind_apply, luaValue_apply,
              Outcome.andThen_done, World.get_neg_one, World.stack_mk, List.cons_append,
              List.getD_cons_zero, checked, if_true]
            exact replyTable_renders inductionHypothesis host rendered
        | _ =>
            simp only [renderValue, if_pos room] at rendered
            cases rendered
            simp [luajitReplyToServerReply, checked, CallHost.send]
      · rw [decide_eq_false room] at checked
        have full : renderValue lua resp (fuel + 1) (frame.length + base.length + 1) value =
            some [.error (bytes "ERR reached lua stack limit") true] := by
          cases value <;> simp only [renderValue, if_neg room]
        rw [full] at rendered
        cases rendered
        simp [luajitReplyToServerReply, checked, CallHost.send]

end Conversion

end ValkeyLuajit
