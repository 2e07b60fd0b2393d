import ValkeyLuajit.Function.Load
import ValkeyLuajit.Script.Execution
import ValkeyLuajit.Script.Handling
import ValkeyLuajit.Script.Rendering

/-!
# Reporting a result without running Lua code

Once `lua_pcall` has returned nothing is protected any more. Reading a result is harmless
as long as no metamethod runs and no lookup fails, and both can only happen where the
fields of an error table are read with `lua_getfield`. `Meets` says which values the
conversion of a returned value comes to, and `ReadsQuietly` of which error tables all
fields are found without Lua code. The reply then is complete; otherwise a metamethod runs
or an error is raised with nobody to catch it.
-/

namespace ValkeyLuajit

open Lua

/-- The token is a reply by itself. -/
def Token.isWhole : Token → Bool
  | .openArray | .openMap | .openSet | .closeArray _ | .closeMap _ | .closeSet _ => false
  | _ => true

/-- The tokens are exactly one reply, with the lengths its containers announce. -/
inductive CompleteReply : List Token → Prop
  | whole {token : Token} (isWhole : token.isWhole) : CompleteReply [token]
  | array {parts : List (List Token)} (complete : ∀ part ∈ parts, CompleteReply part) :
      CompleteReply (.openArray :: parts.flatten ++ [.closeArray parts.length])
  | set {parts : List (List Token)} (complete : ∀ part ∈ parts, CompleteReply part) :
      CompleteReply (.openSet :: parts.flatten ++ [.closeSet parts.length])
  | map {parts : List (List Token)} {length : Nat} (pairs : parts.length = 2 * length)
      (complete : ∀ part ∈ parts, CompleteReply part) :
      CompleteReply (.openMap :: parts.flatten ++ [.closeMap length])

/-- The kinds of reply a table stands for. -/
inductive TableKind where
  | error | status | double | bigNumber | verbatim | map | set | array
deriving DecidableEq

section Parts

variable (lua : State)

/-- The first telling field decides. -/
def tableKind (object : Value) : TableKind :=
  if (lua.field object "err").type = .string then .error
  else if (lua.field object "ok").type = .string then .status
  else if (lua.field object "double").type = .number then .double
  else if (lua.field object "big_number").type = .string then .bigNumber
  else if (verbatimToken lua object).isSome then .verbatim
  else if (lua.field object "map").type = .table then .map
  else if (lua.field object "set").type = .table then .set
  else .array

/-- The values a table's conversion goes on to, each with the height of the stack it then
lies on. -/
def parts (height : Nat) (object : Value) : List (Nat × Value) :=
  match tableKind lua object with
  | .map => (lua.tableOf (lua.field object "map")).entries.entries.flatMap fun entry =>
      [(height + 4, entry.1), (height + 3, entry.2)]
  | .set => (lua.tableOf (lua.field object "set")).entries.entries.map fun entry =>
      (height + 3, entry.1)
  | .array => (arrayElements (lua.tableOf object)
      ((lua.tableOf object).entries.entries.length + 1) 1).map fun element => (height + 1, element)
  | _ => []

/-- The conversion of a value on a stack of this height comes to a table, before the limit
of the stack stops it. -/
inductive Meets : Nat → Value → Value → Prop
  | here {height : Nat} {object : Value} (room : height + 4 ≤ maxCStack)
      (isTable : object.isTable) : Meets height object object
  | part {height : Nat} {object table : Value} {part : Nat × Value}
      (room : height + 4 ≤ maxCStack) (isTable : object.isTable)
      (member : part ∈ parts lua height object) (meets : Meets part.1 part.2 table) :
      Meets height object table

/-- Every field of an error that is read is found without running Lua code. -/
def ReadsQuietly (object : Value) : Prop :=
  ∀ field ∈ errorFields, (quietField lua object field).isSome

/-- The error tables among the tables a conversion comes to are read quietly. -/
def ConvertsQuietly (height : Nat) (value : Value) : Prop :=
  ∀ table, Meets lua height value table → tableKind lua table = .error → ReadsQuietly lua table

end Parts

section Presence

variable {lua : State} {render : Nat → Value → Option (List Token)} {height : Nat} {object : Value}

/-- Entries have tokens when all their keys and values do. -/
theorem renderEntries_isSome_iff {entries : List (Sigma fun _ : Value => Value)} :
    (renderEntries render height entries).isSome ↔
      ∀ part ∈ entries.flatMap fun entry => [(height + 4, entry.1), (height + 3, entry.2)],
        (render part.1 part.2).isSome := by
  induction entries with
  | nil => simp [renderEntries]
  | cons entry rest inductionHypothesis =>
      rw [List.flatMap_cons, List.forall_mem_append, ← inductionHypothesis, renderEntries]
      cases key : render (height + 4) entry.1 with
      | none => simp [key]
      | some keyTokens =>
          cases value : render (height + 3) entry.2 with
          | none => simp [key, value]
          | some valueTokens => cases renderEntries render height rest <;> simp [key, value]

/-- Values have tokens when each of them does. -/
theorem renderAll_isSome_iff {above : Nat} {values : List Value} :
    (renderAll render height above values).isSome ↔
      ∀ value ∈ values, (render (height + above) value).isSome := by
  induction values with
  | nil => simp [renderAll]
  | cons value rest inductionHypothesis =>
      rw [List.forall_mem_cons, ← inductionHypothesis, renderAll]
      cases first : render (height + above) value with
      | none => simp
      | some tokens => cases renderAll render height above rest <;> simp

/-- The token of a table that can be read as an error. -/
theorem renderError_isSome_iff (isError : tableKind lua object = .error) :
    (renderError lua object).isSome ↔ ReadsQuietly lua object := by
  have isText : (lua.field object "err").type = .string := by
    unfold tableKind at isError
    split at isError
    · assumption
    · grind
  have present : lua.field object "err" ≠ .nil := by
    intro absent
    rw [absent] at isText
    cases isText
  have quiet : quietField lua object "err" = some (lua.field object "err") := by
    rw [quietField, lookup_field present]
    rfl
  unfold renderError ReadsQuietly
  simp only [errorFields, List.forall_mem_cons, quiet, Option.isSome_some, true_and,
    List.not_mem_nil, IsEmpty.forall_iff, implies_true, and_true]
  cases quietField lua object "source" with
  | none => simp
  | some source =>
      cases quietField lua object "line" with
      | none => simp
      | some line => cases quietField lua object "ignore_error_stats_update" <;> simp

/-- A table has tokens when its parts do, and when it is read quietly in case it is an error. -/
theorem renderTable_isSome_iff :
    (renderTable lua render height object).isSome ↔
      (tableKind lua object = .error → ReadsQuietly lua object) ∧
        ∀ part ∈ parts lua height object, (render part.1 part.2).isSome := by
  unfold renderTable
  by_cases isErr : (lua.field object "err").type = .string
  · have kind : tableKind lua object = .error := if_pos isErr
    simp [isErr, parts, kind, renderError_isSome_iff kind]
  by_cases isOk : (lua.field object "ok").type = .string
  · have kind : tableKind lua object = .status := by simp [tableKind, isErr, isOk]
    simp [isErr, isOk, parts, kind]
  by_cases isDouble : (lua.field object "double").type = .number
  · have kind : tableKind lua object = .double := by simp [tableKind, isErr, isOk, isDouble]
    simp [isErr, isOk, isDouble, parts, kind]
  by_cases isBig : (lua.field object "big_number").type = .string
  · have kind : tableKind lua object = .bigNumber := by
      simp [tableKind, isErr, isOk, isDouble, isBig]
    simp [isErr, isOk, isDouble, isBig, parts, kind]
  cases verbatim : verbatimToken lua object with
  | some token =>
      have kind : tableKind lua object = .verbatim := by
        simp [tableKind, isErr, isOk, isDouble, isBig, verbatim]
      simp [isErr, isOk, isDouble, isBig, parts, kind]
  | none =>
      by_cases isMap : (lua.field object "map").type = .table
      · have kind : tableKind lua object = .map := by
          simp [tableKind, isErr, isOk, isDouble, isBig, verbatim, isMap]
        simp only [isErr, isOk, isDouble, isBig, isMap, if_false, if_true, Option.isSome_map,
          parts, kind, reduceCtorEq, false_imp_iff, true_and]
        exact renderEntries_isSome_iff
      by_cases isSet : (lua.field object "set").type = .table
      · have kind : tableKind lua object = .set := by
          simp [tableKind, isErr, isOk, isDouble, isBig, verbatim, isMap, isSet]
        simp only [isErr, isOk, isDouble, isBig, isMap, isSet, if_false, if_true,
          Option.isSome_map, parts, kind, reduceCtorEq, false_imp_iff, true_and,
          renderAll_isSome_iff, List.forall_mem_map]
      · have kind : tableKind lua object = .array := by
          simp [tableKind, isErr, isOk, isDouble, isBig, verbatim, isMap, isSet]
        simp only [isErr, isOk, isDouble, isBig, isMap, isSet, if_false, Option.isSome_map, parts,
          kind, reduceCtorEq, false_imp_iff, true_and, renderAll_isSome_iff, List.forall_mem_map]

/-- What a part's conversion comes to, that of the whole does. -/
theorem ConvertsQuietly.part {part : Nat × Value} (room : height + 4 ≤ maxCStack)
    (isTable : object.isTable) (member : part ∈ parts lua height object)
    (quiet : ConvertsQuietly lua height object) : ConvertsQuietly lua part.1 part.2 :=
  fun table meets => quiet table (.part room isTable member meets)

/-- The parts of a table lie above it. -/
theorem height_lt_of_mem_parts {part : Nat × Value} (member : part ∈ parts lua height object) :
    height < part.1 := by
  unfold parts at member
  split at member
  · simp only [List.mem_flatMap, List.mem_cons, List.not_mem_nil, or_false] at member
    obtain ⟨entry, -, rfl | rfl⟩ := member <;> simp
  · obtain ⟨entry, -, rfl⟩ := List.mem_map.mp member
    simp
  · obtain ⟨element, -, rfl⟩ := List.mem_map.mp member
    simp
  · cases member

/-- A conversion is quiet when the table is and the conversions of its parts are. -/
theorem convertsQuietly_iff (room : height + 4 ≤ maxCStack) (isTable : object.isTable) :
    ConvertsQuietly lua height object ↔
      (tableKind lua object = .error → ReadsQuietly lua object) ∧
        ∀ part ∈ parts lua height object, ConvertsQuietly lua part.1 part.2 := by
  constructor
  · intro quiet
    exact ⟨quiet object (.here room isTable), fun part member => quiet.part room isTable member⟩
  · rintro ⟨here, rest⟩ table meets
    cases meets with
    | here => exact here
    | part _ _ member meets => exact rest _ member table meets

/-- Without room, and for values that are no tables, there is nothing to be read. -/
theorem convertsQuietly_of_whole (whole : height + 4 ≤ maxCStack → object.isTable = false) :
    ConvertsQuietly lua height object := by
  intro table meets
  cases meets with
  | here room isTable => rw [whole room] at isTable; cases isTable
  | part room isTable => rw [whole room] at isTable; cases isTable

/-- A value has tokens when its conversion is quiet. -/
theorem renderValue_isSome_iff {resp fuel : Nat} {value : Value} (started : fuel ≠ 0)
    (enough : maxCStack < height + fuel) :
    (renderValue lua resp fuel height value).isSome ↔ ConvertsQuietly lua height value := by
  induction fuel generalizing height value with
  | zero => exact absurd rfl started
  | succ fuel inductionHypothesis =>
      by_cases room : height + 4 ≤ maxCStack
      · by_cases isTable : value.isTable
        · have table : renderValue lua resp (fuel + 1) height value =
              renderTable lua (renderValue lua resp fuel) height value := by
            cases value with
            | table addr => simp only [renderValue, if_pos room]
            | hidden name => simp only [renderValue, if_pos room]
            | _ => cases isTable
          rw [table, renderTable_isSome_iff, convertsQuietly_iff room isTable]
          refine and_congr_right fun _ => forall₂_congr fun part member => ?_
          have above := height_lt_of_mem_parts member
          exact inductionHypothesis (by omega) (by omega)
        · refine iff_of_true ?_ (convertsQuietly_of_whole fun _ => by simpa using isTable)
          cases value with
          | table addr => exact absurd rfl isTable
          | hidden name => exact absurd rfl isTable
          | _ => simp only [renderValue, if_pos room, Option.isSome_some]
      · refine iff_of_true ?_ (convertsQuietly_of_whole fun fits => absurd fits room)
        cases value <;> simp only [renderValue, if_neg room, Option.isSome_some]

end Presence

section Completeness

variable {lua : State} {render : Nat → Value → Option (List Token)} {height : Nat}
  {tokens : List Token}

/-- The tokens that values are rendered to are complete replies. -/
def Completes (render : Nat → Value → Option (List Token)) : Prop :=
  ∀ {height : Nat} {value : Value} {tokens : List Token},
    render height value = some tokens → CompleteReply tokens

/-- The entries of a map are replies in pairs. -/
theorem renderEntries_complete (completes : Completes render)
    {entries : List (Sigma fun _ : Value => Value)}
    (rendered : renderEntries render height entries = some tokens) :
    ∃ replies : List (List Token), replies.flatten = tokens ∧
      replies.length = 2 * entries.length ∧ ∀ reply ∈ replies, CompleteReply reply := by
  induction entries generalizing tokens with
  | nil =>
      cases rendered
      exact ⟨[], rfl, rfl, by simp⟩
  | cons entry rest inductionHypothesis =>
      obtain ⟨key, keyRendered, rendered⟩ := Option.bind_eq_some_iff.mp rendered
      obtain ⟨value, valueRendered, rendered⟩ := Option.bind_eq_some_iff.mp rendered
      obtain ⟨others, othersRendered, rendered⟩ := Option.bind_eq_some_iff.mp rendered
      cases rendered
      obtain ⟨replies, rfl, count, complete⟩ := inductionHypothesis othersRendered
      refine ⟨key :: value :: replies, by simp, by simp [count]; omega, ?_⟩
      intro reply member
      rcases List.mem_cons.mp member with rfl | member
      · exact completes keyRendered
      rcases List.mem_cons.mp member with rfl | member
      · exact completes valueRendered
      · exact complete reply member

/-- Values are as many replies. -/
theorem renderAll_complete (completes : Completes render) {above : Nat} {values : List Value}
    (rendered : renderAll render height above values = some tokens) :
    ∃ replies : List (List Token), replies.flatten = tokens ∧
      replies.length = values.length ∧ ∀ reply ∈ replies, CompleteReply reply := by
  induction values generalizing tokens with
  | nil =>
      cases rendered
      exact ⟨[], rfl, rfl, by simp⟩
  | cons value rest inductionHypothesis =>
      obtain ⟨first, firstRendered, rendered⟩ := Option.bind_eq_some_iff.mp rendered
      obtain ⟨others, othersRendered, rendered⟩ := Option.bind_eq_some_iff.mp rendered
      cases rendered
      obtain ⟨replies, rfl, count, complete⟩ := inductionHypothesis othersRendered
      refine ⟨first :: replies, by simp, by simp [count], ?_⟩
      intro reply member
      rcases List.mem_cons.mp member with rfl | member
      · exact completes firstRendered
      · exact complete reply member

/-- The token of a verbatim table is a reply by itself. -/
theorem verbatimToken_isWhole {object : Value} {token : Token}
    (found : verbatimToken lua object = some token) : token.isWhole := by
  unfold verbatimToken at found
  dsimp only at found
  split at found
  · cases found
    rfl
  · cases found

/-- The tokens of a table are one complete reply. -/
theorem renderTable_complete (completes : Completes render) {object : Value}
    (rendered : renderTable lua render height object = some tokens) : CompleteReply tokens := by
  unfold renderTable at rendered
  dsimp only at rendered
  split at rendered
  · obtain ⟨token, isError, rfl⟩ := Option.map_eq_some_iff.mp rendered
    obtain ⟨_, -, isError⟩ := Option.bind_eq_some_iff.mp isError
    obtain ⟨_, -, isError⟩ := Option.bind_eq_some_iff.mp isError
    obtain ⟨_, -, isError⟩ := Option.bind_eq_some_iff.mp isError
    cases isError
    exact .whole rfl
  split at rendered
  · cases rendered
    exact .whole rfl
  split at rendered
  · cases rendered
    exact .whole rfl
  split at rendered
  · cases rendered
    exact .whole rfl
  split at rendered
  · rename_i token found
    cases rendered
    exact .whole (verbatimToken_isWhole found)
  split at rendered
  · obtain ⟨inner, all, rfl⟩ := Option.map_eq_some_iff.mp rendered
    obtain ⟨replies, rfl, count, complete⟩ := renderEntries_complete completes all
    exact .map count complete
  split at rendered
  · obtain ⟨inner, all, rfl⟩ := Option.map_eq_some_iff.mp rendered
    obtain ⟨replies, rfl, count, complete⟩ := renderAll_complete completes all
    rw [List.length_map] at count
    rw [← count]
    exact .set complete
  · obtain ⟨inner, all, rfl⟩ := Option.map_eq_some_iff.mp rendered
    obtain ⟨replies, rfl, count, complete⟩ := renderAll_complete completes all
    rw [← count]
    exact .array complete

/-- The tokens of a value are one complete reply. -/
theorem renderValue_complete (lua : State) (resp fuel : Nat) :
    Completes (renderValue lua resp fuel) := by
  induction fuel with
  | zero =>
      intro height value tokens rendered
      cases rendered
  | succ fuel inductionHypothesis =>
      intro height value tokens rendered
      unfold renderValue at rendered
      split at rendered
      · split at rendered
        · cases rendered
          exact .whole rfl
        · cases rendered
          refine .whole ?_
          grind [Token.isWhole]
        · cases rendered
          exact .whole rfl
        · exact renderTable_complete inductionHypothesis rendered
        · exact renderTable_complete inductionHypothesis rendered
        · cases rendered
          exact .whole rfl
      · cases rendered
        exact .whole rfl

end Completeness

/-- A value that is only rewritten is missing when the whole is. -/
theorem eq_none_of_bind {α β : Type} {option : Option α} {rewritten : α → β}
    (absent : (option.bind fun value => some (rewritten value)) = none) : option = none := by
  cases option with
  | none => rfl
  | some value => cases absent

section Disturbance

open Effect

/-- The operation ran a metamethod, or it did not come back. -/
def Disturbed {α : Type} (calls : List (FuncRef × State)) (outcome : Outcome CallHost α) : Prop :=
  outcome.IsDone → calls.length < outcome.world.metaCalls.length

variable {α β : Type} {lua : State} {convert : LuaM CallHost Unit}
  {render : Nat → Value → Option (List Token)} {frame base : List Value} {breached : Bool}
  {host : CallHost} {calls : List (FuncRef × State)} {object : Value}

/-- Metamethods that ran stay noted, whatever follows. -/
theorem Disturbed.andThen {outcome : Outcome CallHost α} {next : α → LuaM CallHost β}
    (disturbed : Disturbed calls outcome) (handles : ∀ value, Handles (next value)) :
    Disturbed calls (outcome.andThen next) := by
  cases outcome with
  | done value mid =>
      obtain ⟨more, grown, -⟩ := (handles value mid).metaCalls
      have grown : (next value mid).world.metaCalls = mid.metaCalls ++ more := grown
      intro _
      rw [Outcome.andThen_done, grown, List.length_append]
      exact Nat.lt_add_right _ (disturbed trivial)
  | raised error mid => exact fun returns => returns.elim
  | aborted reason mid => exact fun returns => returns.elim

/-- Converting the value on the top is disturbed where `render` has no tokens for it. -/
def Disturbs (convert : LuaM CallHost Unit) (render : Nat → Value → Option (List Token))
    (lua : State) : Prop :=
  ∀ {frame base : List Value} {value : Value} (breached : Bool) (host : CallHost)
    (calls : List (FuncRef × State)), render (frame.length + base.length + 1) value = none →
    Disturbed calls (convert ⟨value :: frame, base, breached, lua, host, calls⟩)

section Loops

variable (sends : Sends lua convert render) (disturbs : Disturbs convert render lua)
  (handles : Handles convert)
include sends disturbs handles

/-- An entry without tokens disturbs the map loop. -/
theorem replyMapLoop_disturbed {inner key : Value}
    {rest before : List (Sigma fun _ : Value => Value)} {fuel : Nat}
    (parts : (lua.tableOf inner).entries.entries = before ++ rest)
    (here : (lua.tableOf inner).next key = some rest.head?)
    (absent : renderEntries render (frame.length + base.length) rest = none) :
    Disturbed calls
      (replyMapLoop convert fuel ⟨key :: inner :: frame, base, breached, lua, host, calls⟩) := by
  induction rest generalizing fuel key before host with
  | nil => cases absent
  | cons entry rest inductionHypothesis =>
      cases fuel with
      | zero => exact fun returns => returns.elim
      | succ fuel =>
          have goesOn : Handles (replyMapLoop convert fuel >>= fun rest => pure (rest + 1)) :=
            bounds_bind (handles_mapLoop handles fuel) fun _ => bounds_pure _
          have starts : replyMapLoop convert (fuel + 1)
              ⟨key :: inner :: frame, base, breached, lua, host, calls⟩ =
              (convert ⟨entry.1 :: entry.2 :: entry.1 :: inner :: frame, base, breached, lua, host,
                calls⟩).andThen fun _ => convert >>= fun _ =>
                  replyMapLoop convert fuel >>= fun rest => pure (rest + 1) := by
            simp [replyMapLoop, luaNext, here]
          rw [starts]
          cases key : render (frame.length + base.length + 4) entry.1 with
          | none =>
              refine (disturbs breached host calls ?_).andThen fun _ => bounds_bind handles fun _ => goesOn
              simpa [Nat.add_right_comm] using key
          | some first =>
              have keySent := @sends (entry.2 :: entry.1 :: inner :: frame) base entry.1 first
                breached host calls (by simpa [Nat.add_right_comm] using key)
              rw [keySent, Outcome.andThen_done, LuaM.bind_apply]
              cases value : render (frame.length + base.length + 3) entry.2 with
              | none =>
                  refine (disturbs breached _ calls ?_).andThen fun _ => goesOn
                  simpa [Nat.add_right_comm] using value
              | some second =>
                  have valueSent := @sends (entry.1 :: inner :: frame) base entry.2 second
                    breached (host.send first) calls (by simpa [Nat.add_right_comm] using value)
                  rw [valueSent, Outcome.andThen_done, LuaM.bind_apply]
                  have others : renderEntries render (frame.length + base.length) rest = none := by
                    simp only [renderEntries, key, value, Option.bind_eq_bind, Option.bind_some] at absent
                    exact eq_none_of_bind absent
                  exact (inductionHypothesis (by rw [parts, List.append_cons])
                    (Table.next_append parts) others).andThen fun _ => bounds_pure _

/-- An element without tokens disturbs the set loop. -/
theorem replySetLoop_disturbed {inner key : Value}
    {rest before : List (Sigma fun _ : Value => Value)} {fuel : Nat}
    (parts : (lua.tableOf inner).entries.entries = before ++ rest)
    (here : (lua.tableOf inner).next key = some rest.head?)
    (absent : renderAll render (frame.length + base.length) 3 (rest.map Sigma.fst) = none) :
    Disturbed calls
      (replySetLoop convert fuel ⟨key :: inner :: frame, base, breached, lua, host, calls⟩) := by
  induction rest generalizing fuel key before host with
  | nil => cases absent
  | cons entry rest inductionHypothesis =>
      cases fuel with
      | zero => exact fun returns => returns.elim
      | succ fuel =>
          have starts : replySetLoop convert (fuel + 1)
              ⟨key :: inner :: frame, base, breached, lua, host, calls⟩ =
              (convert ⟨entry.1 :: entry.1 :: inner :: frame, base, breached, lua, host,
                calls⟩).andThen fun _ =>
                  replySetLoop convert fuel >>= fun rest => pure (rest + 1) := by
            simp [replySetLoop, luaNext, here]
          rw [starts]
          cases key : render (frame.length + base.length + 3) entry.1 with
          | none =>
              refine (disturbs breached host calls ?_).andThen fun _ =>
                bounds_bind (handles_setLoop handles fuel) fun _ => bounds_pure _
              simpa [Nat.add_right_comm] using key
          | some first =>
              have keySent := @sends (entry.1 :: inner :: frame) base entry.1 first breached host
                calls (by simpa [Nat.add_right_comm] using key)
              rw [keySent, Outcome.andThen_done, LuaM.bind_apply]
              have others : renderAll render (frame.length + base.length) 3
                  (rest.map Sigma.fst) = none := by
                simp only [List.map_cons, renderAll, key, Option.bind_eq_bind,
                  Option.bind_some] at absent
                exact eq_none_of_bind absent
              exact (inductionHypothesis (by rw [parts, List.append_cons])
                (Table.next_append parts) others).andThen fun _ => bounds_pure _

/-- An element without tokens disturbs the array loop. -/
theorem replyArrayLoop_disturbed {rounds j : Nat}
    (absent : renderAll render (frame.length + base.length + 1) 1
      (arrayElements (lua.tableOf object) rounds j) = none) :
    Disturbed calls
      (replyArrayLoop convert rounds j ⟨object :: frame, base, breached, lua, host, calls⟩) := by
  induction rounds generalizing j host with
  | zero => cases absent
  | succ rounds inductionHypothesis =>
      unfold arrayElements at absent
      dsimp only at absent
      split at absent
      · cases absent
      · rename_i present
        let element := (lua.tableOf object).rawGet (.number (.finite j))
        have starts : replyArrayLoop convert (rounds + 1) j
            ⟨object :: frame, base, breached, lua, host, calls⟩ =
            (convert ⟨element :: object :: frame, base, breached, lua, host, calls⟩).andThen
              fun _ => replyArrayLoop convert rounds (j + 1) >>= fun rest => pure (rest + 1) := by
          simp [replyArrayLoop, present, element]
        rw [starts]
        cases first : render (frame.length + base.length + 1 + 1) element with
        | none =>
            refine (disturbs breached host calls ?_).andThen fun _ =>
              bounds_bind (handles_arrayLoop handles rounds (j + 1)) fun _ => bounds_pure _
            simpa [Nat.add_right_comm] using first
        | some tokens =>
            have sent := @sends (object :: frame) base element tokens breached host calls
              (by simpa [Nat.add_right_comm] using first)
            rw [sent, Outcome.andThen_done, LuaM.bind_apply]
            have others : renderAll render (frame.length + base.length + 1) 1
                (arrayElements (lua.tableOf object) rounds (j + 1)) = none := by
              simp only [element] at first
              simp only [renderAll, first, Option.bind_eq_bind, Option.bind_some] at absent
              exact eq_none_of_bind absent
            exact (inductionHypothesis others).andThen fun _ => bounds_pure _

end Loops

section Fields

variable {rt : Runtime} {field : String}

/-- A field that is not found quietly runs a metamethod or raises. -/
theorem luaGetField_disturbed (loud : quietField lua object field = none) :
    Disturbed calls
      (luaGetField rt (-1) field ⟨object :: frame, base, breached, lua, host, calls⟩) := by
  rw [luaGetField_fetch]
  unfold State.fetch
  cases looked : lua.lookup object (.string (bytes field)) with
  | value found =>
      rw [quietField, looked] at loud
      cases loud
  | error message => exact fun returns => returns.elim
  | call handler holder =>
      dsimp only
      cases rt.callMeta calls.length handler [holder, .string (bytes field)] lua.heap with
      | error error => exact fun returns => returns.elim
      | ok result =>
          intro _
          simp

/-- So does reading it as part of an error. -/
theorem readErrorField_disturbed (loud : quietField lua object field = none) :
    Disturbed calls
      (readErrorField rt field ⟨object :: frame, base, breached, lua, host, calls⟩) := by
  rw [readErrorField, LuaM.bind_apply]
  exact (luaGetField_disturbed loud).andThen fun _ =>
    bounds_bind (bounds_value _) fun _ => bounds_bind (bounds_pop _) fun _ => bounds_pure _

/-- A field that is found quietly is read in place. -/
theorem readErrorField_quiet {found : Value} (quiet : quietField lua object field = some found) :
    readErrorField rt field ⟨object :: frame, base, breached, lua, host, calls⟩ =
      .done (if found.isString then some (cString (found.text rt)) else none)
        ⟨object :: frame, base, breached, lua, host, calls⟩ := by
  rw [readErrorField_fetch, fetch_quiet calls quiet]

/-- An error that is not read quietly disturbs whoever reads it. -/
theorem luajitExtractErrorInformation_disturbed (notText : object.isString = false)
    (loud : ¬ ReadsQuietly lua object) :
    Disturbed calls
      (luajitExtractErrorInformation rt ⟨object :: frame, base, breached, lua, host, calls⟩) := by
  have last (change : Value → ErrorInfo) : Handles (luaGetField rt (-1) "ignore_error_stats_update"
      >>= fun _ => luaValue (-1) >>= fun found => luaPop 1 >>= fun _ =>
        (pure (change found) : LuaM CallHost ErrorInfo)) :=
    bounds_bind (handles_getField rt _ _) fun _ => bounds_bind (bounds_value _) fun _ =>
      bounds_bind (bounds_pop _) fun _ => bounds_pure _
  simp only [luajitExtractErrorInformation, LuaM.bind_apply, luaValue_apply, Outcome.andThen_done,
    World.get_neg_one, World.stack_mk, List.cons_append, List.getD_cons_zero, notText,
    Bool.false_eq_true, if_false]
  cases msg : quietField lua object "err" with
  | none =>
      exact (readErrorField_disturbed msg).andThen fun _ =>
        bounds_bind (handles_readErrorField rt _) fun _ =>
          bounds_bind (handles_readErrorField rt _) fun _ => last _
  | some found =>
      rw [readErrorField_quiet msg, Outcome.andThen_done, LuaM.bind_apply]
      cases source : quietField lua object "source" with
      | none =>
          exact (readErrorField_disturbed source).andThen fun _ =>
            bounds_bind (handles_readErrorField rt _) fun _ => last _
      | some found =>
          rw [readErrorField_quiet source, Outcome.andThen_done, LuaM.bind_apply]
          cases line : quietField lua object "line" with
          | none => exact (readErrorField_disturbed line).andThen fun _ => last _
          | some found =>
              rw [readErrorField_quiet line, Outcome.andThen_done, LuaM.bind_apply]
              have ignored : quietField lua object "ignore_error_stats_update" = none := by
                by_contra present
                refine loud fun field member => ?_
                simp only [errorFields, List.mem_cons, List.not_mem_nil, or_false] at member
                rcases member with rfl | rfl | rfl | rfl
                · simp [msg]
                · simp [source]
                · simp [line]
                · exact Option.isSome_iff_ne_none.mpr present
              exact (luaGetField_disturbed ignored).andThen fun _ =>
                bounds_bind (bounds_value _) fun _ => bounds_bind (bounds_pop _) fun _ =>
                  bounds_pure _

end Fields

section Tables

variable {rt : Runtime}

/-- An error table that is not read quietly. -/
theorem replyErrorTable_disturbed (found : Value) (notText : object.isString = false)
    (loud : ¬ ReadsQuietly lua object) :
    Disturbed calls
      (replyErrorTable rt found ⟨found :: object :: frame, base, breached, lua, host, calls⟩) := by
  have starts : replyErrorTable rt found
      ⟨found :: object :: frame, base, breached, lua, host, calls⟩ =
      (luajitExtractErrorInformation rt ⟨object :: frame, base, breached, lua, host, calls⟩).andThen
        fun info => reply (.error (info.msg.getD []) (!info.ignoreErrStatsUpdate)) >>= fun _ =>
          luaPop 1 := by
    simp [replyErrorTable]
  rw [starts]
  exact (luajitExtractErrorInformation_disturbed notText loud).andThen fun _ =>
    handles_replyAndPop _ _

variable (sends : Sends lua convert render) (disturbs : Disturbs convert render lua)
  (handles : Handles convert)
include sends disturbs handles

/-- A map with an entry without tokens. -/
theorem replyMap_disturbed {inner : Value}
    (absent : renderEntries render (frame.length + base.length + 1)
      (lua.tableOf inner).entries.entries = none) :
    Disturbed calls
      (replyMap convert inner ⟨inner :: object :: frame, base, breached, lua, host, calls⟩) := by
  have entries : renderEntries render ((object :: frame).length + base.length)
      (lua.tableOf inner).entries.entries = none := by
    simpa [Nat.add_right_comm] using absent
  have starts : replyMap convert inner ⟨inner :: object :: frame, base, breached, lua, host, calls⟩ =
      (replyMapLoop convert ((lua.tableOf inner).entries.entries.length + 1)
        ⟨.nil :: inner :: object :: frame, base, breached, lua, host.send [.openMap], calls⟩).andThen
          fun maplen => reply (.closeMap maplen) >>= fun _ => luaPop 2 := by
    simp [replyMap, loopBound, CallHost.send]
  rw [starts]
  exact (replyMapLoop_disturbed sends disturbs handles (List.nil_append _).symm (Table.next_nil _)
    entries).andThen fun _ => handles_replyAndPop _ _

/-- A set with a key without tokens. -/
theorem replySet_disturbed {inner : Value}
    (absent : renderAll render (frame.length + base.length + 1) 3
      ((lua.tableOf inner).entries.entries.map Sigma.fst) = none) :
    Disturbed calls
      (replySet convert inner ⟨inner :: object :: frame, base, breached, lua, host, calls⟩) := by
  have keys : renderAll render ((object :: frame).length + base.length) 3
      ((lua.tableOf inner).entries.entries.map Sigma.fst) = none := by
    simpa [Nat.add_right_comm] using absent
  have starts : replySet convert inner ⟨inner :: object :: frame, base, breached, lua, host, calls⟩ =
      (replySetLoop convert ((lua.tableOf inner).entries.entries.length + 1)
        ⟨.nil :: inner :: object :: frame, base, breached, lua, host.send [.openSet], calls⟩).andThen
          fun setlen => reply (.closeSet setlen) >>= fun _ => luaPop 2 := by
    simp [replySet, loopBound, CallHost.send]
  rw [starts]
  exact (replySetLoop_disturbed sends disturbs handles (List.nil_append _).symm (Table.next_nil _)
    keys).andThen fun _ => handles_replyAndPop _ _

/-- An array with an element without tokens. -/
theorem replyArray_disturbed
    (absent : renderAll render (frame.length + base.length + 1) 1
      (arrayElements (lua.tableOf object) ((lua.tableOf object).entries.entries.length + 1) 1) =
        none) :
    Disturbed calls (replyArray convert ⟨object :: frame, base, breached, lua, host, calls⟩) := by
  have starts : replyArray convert ⟨object :: frame, base, breached, lua, host, calls⟩ =
      (replyArrayLoop convert ((lua.tableOf object).entries.entries.length + 1) 1
        ⟨object :: frame, base, breached, lua, host.send [.openArray], calls⟩).andThen
          fun mbulklen => reply (.closeArray mbulklen) >>= fun _ => luaPop 1 := by
    simp [replyArray, loopBound, CallHost.send]
  rw [starts]
  exact (replyArrayLoop_disturbed sends disturbs handles absent).andThen fun _ =>
    handles_replyAndPop _ _

/-- A table without tokens. -/
theorem replyTable_disturbed (isTable : object.isTable)
    (absent : renderTable lua render (frame.length + base.length + 1) object = none) :
    Disturbed calls
      (replyTable rt convert ⟨object :: frame, base, breached, lua, host, calls⟩) := by
  have notText : object.isString = false := by
    cases object <;> first | rfl | cases isTable
  unfold renderTable at absent
  unfold replyTable
  by_cases isErr : (lua.field object "err").type = .string
  · rw [if_pos isErr] at absent
    have isError : tableKind lua object = .error := if_pos isErr
    have loud : ¬ ReadsQuietly lua object := by
      rw [← renderError_isSome_iff isError, Option.map_eq_none_iff.mp absent]
      exact Bool.false_ne_true
    rw [onField_hit _ _ _ _ _ _ _ isErr]
    exact replyErrorTable_disturbed _ notText loud
  rw [if_neg isErr] at absent
  rw [onField_miss _ _ _ _ _ _ _ isErr]
  by_cases isOk : (lua.field object "ok").type = .string
  · rw [if_pos isOk] at absent
    cases absent
  rw [if_neg isOk] at absent
  rw [onField_miss _ _ _ _ _ _ _ isOk]
  by_cases isDouble : (lua.field object "double").type = .number
  · rw [if_pos isDouble] at absent
    cases absent
  rw [if_neg isDouble] at absent
  rw [onField_miss _ _ _ _ _ _ _ isDouble]
  by_cases isBig : (lua.field object "big_number").type = .string
  · rw [if_pos isBig] at absent
    cases absent
  rw [if_neg isBig] at absent
  rw [onField_miss _ _ _ _ _ _ _ isBig]
  cases verbatim : verbatimToken lua object with
  | some token =>
      rw [verbatim] at absent
      cases absent
  | none =>
      rw [verbatim] at absent
      rw [replyVerbatim_miss _ _ _ _ _ _ _ verbatim]
      dsimp only at absent
      by_cases isMap : (lua.field object "map").type = .table
      · rw [if_pos isMap] at absent
        rw [onField_hit _ _ _ _ _ _ _ isMap]
        exact replyMap_disturbed sends disturbs handles (Option.map_eq_none_iff.mp absent)
      rw [if_neg isMap] at absent
      rw [onField_miss _ _ _ _ _ _ _ isMap]
      by_cases isSet : (lua.field object "set").type = .table
      · rw [if_pos isSet] at absent
        rw [onField_hit _ _ _ _ _ _ _ isSet]
        exact replySet_disturbed sends disturbs handles (Option.map_eq_none_iff.mp absent)
      rw [if_neg isSet] at absent
      rw [onField_miss _ _ _ _ _ _ _ isSet]
      exact replyArray_disturbed sends disturbs handles (Option.map_eq_none_iff.mp absent)

end Tables

/-- A value without tokens disturbs its conversion. -/
theorem luajitReplyToServerReply_disturbs (rt : Runtime) (lua : State) (resp fuel : Nat) :
    Disturbs (luajitReplyToServerReply rt resp fuel) (renderValue lua resp fuel) lua := by
  induction fuel with
  | zero => exact fun _ _ _ _ returns => returns.elim
  | succ fuel inductionHypothesis =>
      intro frame base value breached host calls absent
      have height : (value :: frame ++ base).length = frame.length + base.length + 1 := by simp
      by_cases room : frame.length + base.length + 1 + 4 ≤ maxCStack
      · have checked : luaCheckStackFromBottom 4 ⟨value :: frame, base, breached, lua, host, calls⟩ =
            .done true ⟨value :: frame, base, breached, lua, host, calls⟩ := by
          rw [luaCheckStackFromBottom, World.stack_mk, height, decide_eq_true room]
        have converts : Handles (luajitReplyToServerReply rt resp fuel) :=
          handles_replyToServerReply rt resp fuel
        have sends : Sends lua (luajitReplyToServerReply rt resp fuel) (renderValue lua resp fuel) :=
          luajitReplyToServerReply_renders rt lua resp fuel
        cases value with
        | table addr =>
            simp only [renderValue, if_pos room] at absent
            simp only [luajitReplyToServerReply, LuaM.bind_apply, luaValue_apply,
              Outcome.andThen_done, World.get_neg_one, World.stack_mk, List.cons_append,
              List.getD_cons_zero, checked, if_true]
            exact replyTable_disturbed sends inductionHypothesis converts rfl absent
        | hidden name =>
            simp only [renderValue, if_pos room] at absent
            simp only [luajitReplyToServerReply, LuaM.bind_apply, luaValue_apply,
              Outcome.andThen_done, World.get_neg_one, World.stack_mk, List.cons_append,
              List.getD_cons_zero, checked, if_true]
            exact replyTable_disturbed sends inductionHypothesis converts rfl absent
        | _ =>
            simp only [renderValue, if_pos room] at absent
            cases absent
      · exfalso
        revert absent
        cases value <;> simp only [renderValue, if_neg room] <;> (intro absent; cases absent)

end Disturbance

/-- The result on the top of a stack of this height is reported without running Lua code:
a table that was raised is read quietly, a value that was returned is converted quietly. -/
def ReportsQuietly (err : Bool) (lua : State) (height : Nat) (value : Value) : Prop :=
  if err then value.isTable → ReadsQuietly lua value else ConvertsQuietly lua height value

section Registry

variable {lua : State} (registry : String → Value) {height : Nat} {value table : Value}

/-- Conversions do not look at the registry. -/
theorem Meets.of_registry (meets : Meets lua height value table) :
    Meets { lua with registry := registry } height value table := by
  induction meets with
  | here room isTable => exact .here room isTable
  | part room isTable member _ inductionHypothesis =>
      exact .part room isTable member inductionHypothesis

theorem reportsQuietly_registry {err : Bool} :
    ReportsQuietly err { lua with registry := registry } height value ↔
      ReportsQuietly err lua height value := by
  cases err with
  | true => exact Iff.rfl
  | false =>
      exact ⟨fun quiet table meets => quiet table (meets.of_registry registry),
        fun quiet table meets => quiet table (meets.of_registry lua.registry)⟩

end Registry

section Result

open Effect

variable {rt : Runtime} {frame base : List Value} {breached : Bool} {lua : State}
  {host : CallHost} {calls : List (FuncRef × State)} {value : Value}

/-- Counting collections touches nothing but the registry. -/
theorem countGcCycle_apply : ∃ registry,
    countGcCycle ⟨value :: frame, base, breached, lua, host, calls⟩ =
      .done () ⟨value :: frame, base, breached, { lua with registry := registry }, host, calls⟩ :=
  ⟨_, by simp [countGcCycle, readCounter, writeCounter]; rfl⟩

variable (rt frame base breached host calls) in
/-- What is read quietly is read in place. -/
theorem luajitExtractErrorInformation_quiet (isTable : value.isTable)
    (quiet : ReadsQuietly lua value) :
    ∃ info, luajitExtractErrorInformation rt ⟨value :: frame, base, breached, lua, host, calls⟩ =
      .done info ⟨value :: frame, base, breached, lua, host, calls⟩ := by
  have quiet (field : String) (member : field ∈ errorFields) :
      ∃ found, quietField lua value field = some found :=
    Option.isSome_iff_exists.mp (quiet field member)
  obtain ⟨msg, msgQuiet⟩ := quiet "err" (by decide)
  obtain ⟨source, sourceQuiet⟩ := quiet "source" (by decide)
  obtain ⟨line, lineQuiet⟩ := quiet "line" (by decide)
  obtain ⟨ignored, ignoredQuiet⟩ := quiet "ignore_error_stats_update" (by decide)
  have notText : value.isString = false := by
    cases value <;> first | rfl | cases isTable
  exact ⟨_, by
    simp [luajitExtractErrorInformation, notText, readErrorField_quiet msgQuiet,
      readErrorField_quiet sourceQuiet, readErrorField_quiet lineQuiet, luaGetField_fetch,
      fetch_quiet _ ignoredQuiet]
    rfl⟩

/-- An error is one token, if it is read quietly. -/
theorem reportError_quiet (quiet : value.isTable → ReadsQuietly lua value) :
    ∃ text updateStats, reportError rt ⟨value :: frame, base, breached, lua, host, calls⟩ =
      .done () ⟨frame, base, breached, lua, host.send [.error text updateStats], calls⟩ := by
  by_cases isTable : value.isTable
  · obtain ⟨info, extracted⟩ := luajitExtractErrorInformation_quiet rt frame base breached host
      calls isTable (quiet isTable)
    exact ⟨_, !info.ignoreErrStatsUpdate, by
      simp [reportError, isTable, extracted, CallHost.send]
      rfl⟩
  · exact ⟨_, true, by simp [reportError, isTable, CallHost.send]; rfl⟩

/-- An error that is not read quietly disturbs its report. -/
theorem reportError_disturbed (isTable : value.isTable) (loud : ¬ ReadsQuietly lua value) :
    Disturbed calls (reportError rt ⟨value :: frame, base, breached, lua, host, calls⟩) := by
  have notText : value.isString = false := by
    cases value <;> first | rfl | cases isTable
  simp only [reportError, LuaM.bind_apply, luaValue_apply, Outcome.andThen_done,
    World.get_neg_one, World.stack_mk, List.cons_append, List.getD_cons_zero, isTable, if_true]
  exact (luajitExtractErrorInformation_disturbed notText loud).andThen fun _ =>
    handles_replyAndPop _ _

variable (rt frame base breached host calls) in
/-- A result that is reported quietly is one complete reply; any other disturbs its report. -/
theorem reportResult_cases (err : Bool) :
    ReportsQuietly err lua (frame.length + base.length + 1) value ∧
        (∃ registry tokens, CompleteReply tokens ∧
          reportResult rt err ⟨value :: frame, base, breached, lua, host, calls⟩ =
            .done () ⟨frame, base, breached, { lua with registry := registry }, host.send tokens,
              calls⟩) ∨
      ¬ ReportsQuietly err lua (frame.length + base.length + 1) value ∧
        Disturbed calls (reportResult rt err ⟨value :: frame, base, breached, lua, host, calls⟩) := by
  obtain ⟨registry, counted⟩ : ∃ registry,
      countGcCycle ⟨value :: frame, base, breached, lua, host, calls⟩ =
        .done () ⟨value :: frame, base, breached, { lua with registry := registry }, host, calls⟩ :=
    countGcCycle_apply
  rw [← reportsQuietly_registry registry]
  simp only [reportResult, LuaM.bind_apply, counted, Outcome.andThen_done]
  cases err with
  | true =>
      by_cases quiet : value.isTable → ReadsQuietly { lua with registry := registry } value
      · obtain ⟨text, updateStats, reported⟩ := reportError_quiet quiet
        exact .inl ⟨quiet, registry, _, .whole rfl, reported⟩
      · obtain ⟨isTable, loud⟩ := Classical.not_imp.mp quiet
        exact .inr ⟨quiet, reportError_disturbed isTable loud⟩
  | false =>
      simp only [Bool.false_eq_true, if_false, LuaM.bind_apply, currentResp, Outcome.andThen_done]
      have decides := @renderValue_isSome_iff { lua with registry := registry }
        (frame.length + base.length + 1) ((host.callCtx.map FuncCallCtx.resp).getD 2)
        (maxCStack + 1) value (Nat.succ_ne_zero _) (by omega)
      by_cases quiet : ConvertsQuietly { lua with registry := registry }
          (frame.length + base.length + 1) value
      · obtain ⟨tokens, rendered⟩ := Option.isSome_iff_exists.mp (decides.mpr quiet)
        exact .inl ⟨quiet, registry, tokens, renderValue_complete _ _ _ rendered,
          luajitReplyToServerReply_renders rt _ _ _ breached host calls rendered⟩
      · refine .inr ⟨quiet, luajitReplyToServerReply_disturbs rt _ _ _ breached host calls ?_⟩
        exact Option.not_isSome_iff_eq_none.mp (mt decides.mp quiet)

variable (rt frame base breached lua host calls value) in
/-- The part of a call after `lua_pcall` returned, with one complete reply if the result is
reported quietly. -/
theorem finishCall_cases (err : Bool) :
    ReportsQuietly err lua (frame.length + base.length + 1) value ∧
        (∃ registry tokens, CompleteReply tokens ∧
          finishCall rt err ⟨value :: frame, base, breached, lua, host, calls⟩ =
            .done () ⟨frame, base, breached, { lua with registry := registry, hook := none },
              { host.send tokens with callCtx := none }, calls⟩) ∨
      ¬ ReportsQuietly err lua (frame.length + base.length + 1) value ∧
        Disturbed calls (finishCall rt err ⟨value :: frame, base, breached, lua, host, calls⟩) := by
  rw [finishCall_eq, LuaM.bind_apply]
  rcases reportResult_cases rt frame base breached host calls err with
    ⟨quiet, registry, tokens, complete, reported⟩ | ⟨loud, disturbed⟩
  · refine .inl ⟨quiet, Function.update registry registryRunCtxName .nil, tokens, complete, ?_⟩
    rw [reported]
    simp [clearCall]
  · refine .inr ⟨loud, ?_⟩
    cases reported : reportResult rt err ⟨value :: frame, base, breached, lua, host, calls⟩ with
    | done _ final =>
        rw [reported] at disturbed
        obtain ⟨frame, base, breached, lua, host, calls⟩ := final
        simpa [clearCall, Disturbed, Outcome.IsDone] using disturbed
    | raised error final => exact fun returns => returns.elim
    | aborted reason final => exact fun returns => returns.elim

end Result

/-- `luajitCallFunction` up to the return of `lua_pcall`. -/
def callProtected (rt : Runtime) (callCtx : FuncCallCtx) (keys args : List Bytes)
    (body : FuncRef → List Value → LuaM CallHost (List Value)) : LuaM CallHost Bool := do
  beginCall rt callCtx keys args
  luaPCall (if callCtx.type = .eval then 0 else 2) body

theorem luajitCallFunction_eq {rt : Runtime} {callCtx : FuncCallCtx} {keys args : List Bytes}
    {body : FuncRef → List Value → LuaM CallHost (List Value)} :
    luajitCallFunction rt callCtx keys args body =
      callProtected rt callCtx keys args body >>= finishCall rt := by
  simp only [luajitCallFunction, callProtected, LuaM.bind_bind]

/-- What an operation did after this world: it returned, ran no metamethod and sent exactly one
reply. -/
def ReportsOnce (before : World CallHost) (outcome : Outcome CallHost Unit) : Prop :=
  ∃ final tokens, outcome = .done () final ∧ final.metaCalls = before.metaCalls ∧
    CompleteReply tokens ∧ final.host.trace = before.host.trace ++ tokens.map .sent

section Call

variable {rt : Runtime} {callCtx : FuncCallCtx} {keys args : List Bytes} {state : StateKind}
  {script : ScriptRun}

/-- `lua_pcall` leaves one value on the top: what the script returned or raised. -/
theorem callProtected_result {world returned : World CallHost} {err : Bool}
    (ended : callProtected rt callCtx keys args (enterUserCode rt state .body script) world =
      .done err returned) : ∃ value frame, returned.frame = value :: frame := by
  obtain ⟨_, begun, -, ended⟩ := Outcome.andThen_eq_done.mp ended
  unfold luaPCall at ended
  dsimp only at ended
  split at ended
  · rename_i results final inner
    cases ended
    obtain ⟨body, bodyEnded, -⟩ := inFrame_eq_done.mp inner
    obtain ⟨-, value, -, rfl⟩ := Setting.run_eq_done.mp bodyEnded
    exact ⟨value, _, rfl⟩
  · cases ended
    exact ⟨_, _, rfl⟩
  · cases ended

/-- Once `lua_pcall` has returned, a call returns after sending one reply, without running a
metamethod, exactly when its result is reported quietly. -/
theorem luajitCallFunction_reportsOnce_iff {world returned : World CallHost} {err : Bool}
    (ended : callProtected rt callCtx keys args (enterUserCode rt state .body script) world =
      .done err returned) :
    ReportsOnce returned
        (luajitCallFunction rt callCtx keys args (enterUserCode rt state .body script) world) ↔
      ReportsQuietly err returned.lua returned.stack.length (returned.get (-1)) := by
  obtain ⟨value, slots, top⟩ := callProtected_result ended
  rw [luajitCallFunction_eq, LuaM.bind_apply, ended, Outcome.andThen_done]
  obtain ⟨frame, base, breached, lua, host, calls⟩ := returned
  obtain rfl : frame = value :: slots := top
  have height : (value :: slots ++ base).length = slots.length + base.length + 1 := by simp
  rw [World.stack_mk, height, World.get_neg_one, World.stack_mk, List.cons_append,
    List.getD_cons_zero]
  rcases finishCall_cases rt slots base breached lua host calls value err with
    ⟨quiet, registry, tokens, complete, finished⟩ | ⟨loud, disturbed⟩
  · exact iff_of_true ⟨_, tokens, finished, rfl, complete, rfl⟩ quiet
  · refine iff_of_false ?_ loud
    rintro ⟨final, tokens, finished, same, -⟩
    rw [finished] at disturbed
    have grown := disturbed trivial
    rw [Outcome.world_done, same] at grown
    exact Nat.lt_irrefl _ grown

end Call

section Bare

variable {lua : State} {height : Nat} {value : Value}

/-- A table without a metatable is read without running Lua code. -/
theorem readsQuietly_of_bare {object : Value} (isTable : object.isTable)
    (bare : ∀ addr, object = .table addr → (lua.heap.cells addr).metatable = none) :
    ReadsQuietly lua object := by
  intro field _
  cases object with
  | table addr =>
      have found : lua.lookup (.table addr) (.string (bytes field)) = .value _ :=
        Heap.index_of_no_metatable _ (bare addr rfl)
      rw [quietField, found]
      rfl
  | hidden name => rfl
  | _ => cases isTable

/-- Only tables are met. -/
theorem Meets.isTable {table : Value} (meets : Meets lua height value table) : table.isTable := by
  induction meets with
  | here room isTable => exact isTable
  | part room isTable member meets inductionHypothesis => exact inductionHypothesis

/-- Whatever tables a value is made of, as long as none of those the conversion comes to has a
metatable: it ends, consumes the value and sends exactly one complete reply. The tables may
be shared, cyclic or nested too deep, since every level of nesting takes room on the stack. -/
theorem luajitReplyToServerReply_completes (rt : Runtime) (resp : Nat) {fuel : Nat}
    (frame base : List Value) (breached : Bool) (host : CallHost)
    (calls : List (FuncRef × State)) (enough : maxCStack < fuel)
    (bare : ∀ addr, Meets lua (frame.length + base.length + 1) value (.table addr) →
      (lua.heap.cells addr).metatable = none) :
    ∃ tokens, CompleteReply tokens ∧
      luajitReplyToServerReply rt resp fuel ⟨value :: frame, base, breached, lua, host, calls⟩ =
        .done () ⟨frame, base, breached, lua, host.send tokens, calls⟩ := by
  have quiet : ConvertsQuietly lua (frame.length + base.length + 1) value :=
    fun table meets _ => readsQuietly_of_bare meets.isTable fun addr same => bare addr (same ▸ meets)
  obtain ⟨tokens, rendered⟩ := Option.isSome_iff_exists.mp
    ((@renderValue_isSome_iff lua _ resp fuel value (by omega) (by omega)).mpr quiet)
  exact ⟨tokens, renderValue_complete _ _ _ rendered,
    luajitReplyToServerReply_renders rt lua resp fuel breached host calls rendered⟩

end Bare

/-- A heap whose table at address 1 is its own first element. -/
def cyclicHeap : Heap where
  next := 2
  cells := fun addr =>
    if addr = 1 then .ofFields [(.number (.finite 1), .table 1)] else .empty
  stringMeta := none
  userdataMeta := fun _ => none

/-- A table that contains itself is answered, up to the limit of the stack. -/
theorem cyclic_table_completes : ∃ tokens, CompleteReply tokens ∧
    luajitReplyToServerReply .plain 3 (maxCStack + 1)
        ⟨[.table 1], [], false, { luaLNewstate with heap := cyclicHeap }, ⟨none, []⟩, []⟩ =
      .done () ⟨[], [], false, { luaLNewstate with heap := cyclicHeap },
        CallHost.send ⟨none, []⟩ tokens, []⟩ := by
  refine luajitReplyToServerReply_completes .plain 3 [] [] false ⟨none, []⟩ []
    (Nat.lt_succ_self _) fun addr _ => ?_
  simp only [cyclicHeap]
  split <;> rfl

/-- A heap with an error table at address 1 whose missing fields a function looks for. -/
def loudHeap : Heap where
  next := 3
  cells := fun addr =>
    if addr = 1 then .ofFields [(.string (bytes "err"), .string (bytes "x"))] (some 2)
    else if addr = 2 then .ofFields [(.string (bytes "__index"), .function (.closure 0))]
    else .empty
  stringMeta := none
  userdataMeta := fun _ => none

/-- A script that returns this error table. -/
def returnsLoud : ScriptRun := ⟨[.step loudHeap], .ok (.table 1)⟩

/-- A heap with a list at address 1 that has an error table without a metatable in it. -/
def nestedHeap : Heap where
  next := 3
  cells := fun addr =>
    if addr = 1 then .ofFields [(.number (.finite 1), .number (.finite 7)),
      (.number (.finite 2), .table 2)]
    else if addr = 2 then .ofFields [(.string (bytes "err"), .string (bytes "x"))]
    else .empty
  stringMeta := none
  userdataMeta := fun _ => none

/-- A script that returns this list. -/
def returnsNested : ScriptRun := ⟨[.step nestedHeap], .ok (.table 1)⟩

/-- An EVAL script is about to be called. -/
def evalStart : World CallHost :=
  ⟨[.function (.chunk (bytes "return")), .function (.native "error_handler")], [], false,
    luaLNewstate, ⟨none, []⟩, []⟩

def evalCallCtx : FuncCallCtx where
  moduleCtx := 3
  runCtx := 4
  type := .eval
  replicationFlags := propagateAof + propagateRepl
  resp := 2
  luaEnableInsecureApi := false

/-- With a metatable behind an error table, the call does not come back. -/
theorem loud_result_unprotected : ¬ ∀ (rt : Runtime) (callCtx : FuncCallCtx)
    (keys args : List Bytes) (state : StateKind) (script : ScriptRun)
    (world returned : World CallHost) (err : Bool),
    callProtected rt callCtx keys args (enterUserCode rt state .body script) world =
      .done err returned →
    ReportsOnce returned
      (luajitCallFunction rt callCtx keys args (enterUserCode rt state .body script) world) := by
  intro safe
  obtain ⟨final, tokens, finished, -⟩ := safe .plain evalCallCtx [] [] .eval returnsLoud evalStart _
    false (Outcome.eq_done (by decide +kernel))
  have stuck : ¬ (luajitCallFunction .plain evalCallCtx [] []
      (enterUserCode .plain .eval .body returnsLoud) evalStart).IsDone := by
    decide +kernel
  rw [finished] at stuck
  exact stuck trivial

/-- A script that returns a list with an error table in it is answered once. -/
theorem nested_result_reported :
    ReportsOnce
      (callProtected .plain evalCallCtx [] [] (enterUserCode .plain .eval .body returnsNested)
        evalStart).world
      (luajitCallFunction .plain evalCallCtx [] []
        (enterUserCode .plain .eval .body returnsNested) evalStart) := by
  have ended : callProtected .plain evalCallCtx [] []
      (enterUserCode .plain .eval .body returnsNested) evalStart = .done false _ :=
    Outcome.eq_done (by decide +kernel)
  refine (luajitCallFunction_reportsOnce_iff ended).mpr ?_
  rw [ReportsQuietly, if_neg Bool.false_ne_true]
  exact (@renderValue_isSome_iff _ _ 2 (maxCStack + 1) _ (Nat.succ_ne_zero _) (by omega)).mp
    (by decide +kernel)

end ValkeyLuajit
