import ValkeyLuajit.Script.Cast
import ValkeyLuajit.Script.Handling
import ValkeyLuajit.Script.InPlace

/-!
# Replies and what they are made of

The conversion to a reply once more, with notes: each line that is sent, with the field it
was made of, and each cast. The lines are made as the source makes them, in memory that was
handed out with anything in it.
-/

namespace ValkeyLuajit.Noted

open Lua Recorded

/-- What the conversion notes: a line of the field of this name, with the table and the state it
was read in, or a cast. -/
inductive ReplyNote where
  | line (lua : State) (object : Value) (name : String) (text : Bytes)
  | cast (cast : Cast)

/-- The name of the field and the text of a line. -/
def ReplyNote.line? : ReplyNote → Option (String × Bytes)
  | .line _ _ name text => some (name, text)
  | .cast _ => none

/-- The text of a line reply, behind the name of the field such a reply is made of. -/
def lineOf : Token → Option (String × Bytes)
  | .simple text => some ("ok", text)
  | .bigNumber text => some ("big_number", text)
  | _ => none

/-- The lines that were sent. -/
def sentLines (trace : List Event) : List (String × Bytes) :=
  (sentTokens trace).filterMap lineOf

section

variable (rt : Runtime) (fresh : List Event → Nat → UInt8)

/-- Make a line of the field in fresh memory. -/
def makeLine (make : (Nat → UInt8) → Bytes → Option Bytes) (field : Bytes) : LuaM CallHost Bytes :=
  fun world =>
    match make (fresh world.host.trace) field with
    | some text => .done text world
    | none => .aborted "access outside the copy" world

/-- Note a line of the field on the top, which lies on its table. -/
def noteLine (name : String) (text : Bytes) : Recorded ReplyNote CallHost Unit := fun world =>
  ⟨.done () world, [.line world.lua (world.get (-2)) name text]⟩

/-- Make a line of the field and send it. -/
def replyLine (make : (Nat → UInt8) → Bytes → Option Bytes) (send : Bytes → Token) (name : String)
    (found : Value) : Recorded ReplyNote CallHost Unit := do
  let text ← run (makeLine fresh make found.stringBytes)
  noteLine name text
  run (reply (send text))

/-- Fetch a raw field of the table on the top, and handle it if it has the expected type. -/
def onField (field : String) (type : LuaType) (handle : Value → Recorded ReplyNote CallHost Unit)
    (otherwise : Recorded ReplyNote CallHost Unit) : Recorded ReplyNote CallHost Unit := do
  run (luaPushString field)
  run (luaRawGet (-2))
  let found ← run (luaValue (-1))
  if found.type = type then handle found
  else do
    run (luaPop 1)
    otherwise

/-- Handle a status reply. -/
def replyStatus (found : Value) : Recorded ReplyNote CallHost Unit := do
  replyLine fresh InPlace.statusLine .simple "ok" found
  run (luaPop 2)

/-- Handle a big number reply. -/
def replyBigNumber (found : Value) : Recorded ReplyNote CallHost Unit := do
  replyLine fresh InPlace.bigNumberLine .bigNumber "big_number" found
  run (luaPop 2)

/-- Handle a verbatim reply, or test the table further. -/
def replyVerbatim (otherwise : Recorded ReplyNote CallHost Unit) :
    Recorded ReplyNote CallHost Unit := do
  run (luaPushString "verbatim_string")
  run (luaRawGet (-2))
  let inner ← run (luaValue (-1))
  if inner.type = .table then do
    run (luaPushString "format")
    run (luaRawGet (-2))
    let format ← run (luaValue (-1))
    if format.type = .string then do
      run (luaPushString "string")
      run (luaRawGet (-3))
      let text ← run (luaValue (-1))
      if text.type = .string then do
        run (reply (.verbatim text.stringBytes (cString format.stringBytes)))
        run (luaPop 4)
      else do
        run (luaPop 1)
        run (luaPop 1)
        run (luaPop 1)
        otherwise
    else do
      run (luaPop 1)
      run (luaPop 1)
      otherwise
  else do
    run (luaPop 1)
    otherwise

/-- The map loop: each key is duplicated before it is consumed. -/
def replyMapLoop (convert : Recorded ReplyNote CallHost Unit) : Nat → Recorded ReplyNote CallHost Nat
  | 0 => run fun world => .aborted "loop bound" world
  | fuel + 1 => do
      let more ← run (luaNext (-2))
      if more then do
        run (luaPushValue (-2))
        convert
        convert
        let rest ← replyMapLoop convert fuel
        pure (rest + 1)
      else pure 0

/-- Handle a map reply. -/
def replyMap (convert : Recorded ReplyNote CallHost Unit) (_ : Value) :
    Recorded ReplyNote CallHost Unit := do
  run (reply .openMap)
  let bound ← run loopBound
  run (luaPush .nil)
  let maplen ← replyMapLoop convert bound
  run (reply (.closeMap maplen))
  run (luaPop 2)

/-- The set loop: the value is discarded and the key duplicated. -/
def replySetLoop (convert : Recorded ReplyNote CallHost Unit) : Nat → Recorded ReplyNote CallHost Nat
  | 0 => run fun world => .aborted "loop bound" world
  | fuel + 1 => do
      let more ← run (luaNext (-2))
      if more then do
        run (luaPop 1)
        run (luaPushValue (-1))
        convert
        let rest ← replySetLoop convert fuel
        pure (rest + 1)
      else pure 0

/-- Handle a set reply. -/
def replySet (convert : Recorded ReplyNote CallHost Unit) (_ : Value) :
    Recorded ReplyNote CallHost Unit := do
  run (reply .openSet)
  let bound ← run loopBound
  run (luaPush .nil)
  let setlen ← replySetLoop convert bound
  run (reply (.closeSet setlen))
  run (luaPop 2)

/-- The array loop: elements from index `j` on, up to the first nil. -/
def replyArrayLoop (convert : Recorded ReplyNote CallHost Unit) :
    Nat → Nat → Recorded ReplyNote CallHost Nat
  | 0, _ => run fun world => .aborted "loop bound" world
  | fuel + 1, j => do
      run (luaPush (.number (.finite j)))
      run (luaRawGet (-2))
      let element ← run (luaValue (-1))
      if element.type = .nil then do
        run (luaPop 1)
        pure 0
      else do
        convert
        let rest ← replyArrayLoop convert fuel (j + 1)
        pure (rest + 1)

/-- Handle any other table as an array. -/
def replyArray (convert : Recorded ReplyNote CallHost Unit) : Recorded ReplyNote CallHost Unit := do
  run (reply .openArray)
  let bound ← run loopBound
  let mbulklen ← replyArrayLoop convert bound 1
  run (reply (.closeArray mbulklen))
  run (luaPop 1)

/-- The tests of a table, in the order of the source. -/
def replyTable (convert : Recorded ReplyNote CallHost Unit) : Recorded ReplyNote CallHost Unit :=
  onField "err" .string (fun found => run (replyErrorTable rt found))
    (onField "ok" .string (replyStatus fresh)
      (onField "double" .number (fun found => run (replyDouble found))
        (onField "big_number" .string (replyBigNumber fresh)
          (replyVerbatim
            (onField "map" .table (replyMap convert)
              (onField "set" .table (replySet convert)
                (replyArray convert)))))))

/-- The conversion with its notes; an integer reply is a cast. -/
def luajitReplyToServerReply (resp : Nat) : Nat → Recorded ReplyNote CallHost Unit
  | 0 => run fun world => .aborted "recursion bound" world
  | fuel + 1 => do
      let value ← run (luaValue (-1))
      let fits ← run (luaCheckStackFromBottom 4)
      if fits then
        match value with
        | .string text => do
            run (reply (.bulk text))
            run (luaPop 1)
        | .boolean flag => do
            run (reply (if resp = 2 then (if flag then .integer 1 else .null) else .bool flag))
            run (luaPop 1)
        | .number number => do
            note [.cast ⟨number, .longLong⟩]
            run (reply (.integer number.toLongLong))
            run (luaPop 1)
        | .table _ | .hidden _ =>
            replyTable rt fresh (luajitReplyToServerReply resp fuel)
        | _ => do
            run (reply .null)
            run (luaPop 1)
      else do
        run (reply (.error (bytes "ERR reached lua stack limit") true))
        run (luaPop 1)

end

section Erasure

variable {rt : Runtime} {fresh : List Event → Nat → UInt8}

/-- What the memory held before makes no difference to the line. -/
theorem makeLine_eq {make : (Nat → UInt8) → Bytes → Option Bytes} {field : Bytes}
    (made : ∀ memory, make memory field = some (lineText field)) :
    makeLine fresh make field = pure (lineText field) := by
  funext world
  rw [makeLine, made]
  rfl

/-- A line is made and sent as its text is. -/
theorem erases_replyLine {make : (Nat → UInt8) → Bytes → Option Bytes} (send : Bytes → Token)
    (name : String) {found : Value}
    (made : ∀ memory, make memory found.stringBytes = some (lineText found.stringBytes)) :
    Erases (replyLine fresh make send name found) (reply (send (lineText found.stringBytes))) := by
  intro world
  rw [replyLine, makeLine_eq made]
  rfl

/-- The test is the one of the conversion when both its outcomes are. -/
theorem erases_onField (field : String) (type : LuaType)
    {handle : Value → Recorded ReplyNote CallHost Unit}
    {otherwise : Recorded ReplyNote CallHost Unit} {taken : Value → LuaM CallHost Unit}
    {dropped : LuaM CallHost Unit} (found : ∀ value, Erases (handle value) (taken value))
    (missing : Erases otherwise dropped) : Erases (onField field type handle otherwise)
      (ValkeyLuajit.onField field type taken dropped) := by
  iterate 2 (apply erases_step; intro _)
  apply erases_step
  intro value
  exact erases_ite (found value) (erases_step fun _ => missing)

/-- Without its note a status is replied as before. -/
theorem erases_replyStatus (found : Value) :
    Erases (replyStatus fresh found) (ValkeyLuajit.replyStatus found) :=
  erases_bind (erases_replyLine .simple "ok" fun memory => InPlace.statusLine_eq memory _) fun _ =>
    erases_run _

/-- Without its note a big number is replied as before. -/
theorem erases_replyBigNumber (found : Value) :
    Erases (replyBigNumber fresh found) (ValkeyLuajit.replyBigNumber found) :=
  erases_bind
    (erases_replyLine .bigNumber "big_number" fun memory => InPlace.bigNumberLine_eq memory _)
    fun _ => erases_run _

/-- The tests on a verbatim text note nothing. -/
theorem erases_replyVerbatim {otherwise : Recorded ReplyNote CallHost Unit}
    {dropped : LuaM CallHost Unit} (missing : Erases otherwise dropped) :
    Erases (replyVerbatim otherwise) (ValkeyLuajit.replyVerbatim dropped) := by
  iterate 3 (apply erases_step; intro _)
  apply erases_ite
  · iterate 3 (apply erases_step; intro _)
    apply erases_ite
    · iterate 3 (apply erases_step; intro _)
      apply erases_ite
      · exact erases_step fun _ => erases_run _
      · exact erases_step fun _ => erases_step fun _ => erases_step fun _ => missing
    · exact erases_step fun _ => erases_step fun _ => missing
  · exact erases_step fun _ => missing

section Containers

variable {convert : Recorded ReplyNote CallHost Unit} {operation : LuaM CallHost Unit}
  (each : Erases convert operation)

include each

/-- The loop over a map notes what the conversion does. -/
theorem erases_replyMapLoop (fuel : Nat) :
    Erases (replyMapLoop convert fuel) (ValkeyLuajit.replyMapLoop operation fuel) := by
  induction fuel with
  | zero => exact erases_run _
  | succ fuel inductionHypothesis =>
      apply erases_step
      intro more
      apply erases_ite
      · apply erases_step
        intro _
        apply erases_bind each
        intro _
        apply erases_bind each
        intro _
        exact erases_bind inductionHypothesis fun _ => erases_pure _
      · exact erases_pure 0

/-- The loop over a set notes what the conversion does. -/
theorem erases_replySetLoop (fuel : Nat) :
    Erases (replySetLoop convert fuel) (ValkeyLuajit.replySetLoop operation fuel) := by
  induction fuel with
  | zero => exact erases_run _
  | succ fuel inductionHypothesis =>
      apply erases_step
      intro more
      apply erases_ite
      · iterate 2 (apply erases_step; intro _)
        apply erases_bind each
        intro _
        exact erases_bind inductionHypothesis fun _ => erases_pure _
      · exact erases_pure 0

/-- The loop over an array notes what the conversion does. -/
theorem erases_replyArrayLoop (fuel j : Nat) :
    Erases (replyArrayLoop convert fuel j) (ValkeyLuajit.replyArrayLoop operation fuel j) := by
  induction fuel generalizing j with
  | zero => exact erases_run _
  | succ fuel inductionHypothesis =>
      iterate 3 (apply erases_step; intro _)
      apply erases_ite
      · exact erases_step fun _ => erases_pure 0
      · apply erases_bind each
        intro _
        exact erases_bind (inductionHypothesis (j + 1)) fun _ => erases_pure _

/-- A map adds no note of its own. -/
theorem erases_replyMap (found : Value) :
    Erases (replyMap convert found) (ValkeyLuajit.replyMap operation found) := by
  iterate 3 (apply erases_step; intro _)
  exact erases_bind (erases_replyMapLoop each _) fun _ => erases_step fun _ => erases_run _

/-- A set adds no note of its own. -/
theorem erases_replySet (found : Value) :
    Erases (replySet convert found) (ValkeyLuajit.replySet operation found) := by
  iterate 3 (apply erases_step; intro _)
  exact erases_bind (erases_replySetLoop each _) fun _ => erases_step fun _ => erases_run _

/-- An array adds no note of its own. -/
theorem erases_replyArray : Erases (replyArray convert) (ValkeyLuajit.replyArray operation) := by
  iterate 2 (apply erases_step; intro _)
  exact erases_bind (erases_replyArrayLoop each _ 1) fun _ => erases_step fun _ => erases_run _

/-- Without the notes the tests on a table are the same. -/
theorem erases_replyTable :
    Erases (replyTable rt fresh convert) (ValkeyLuajit.replyTable rt operation) := by
  apply erases_onField "err" .string fun _ => erases_run _
  apply erases_onField "ok" .string erases_replyStatus
  apply erases_onField "double" .number fun _ => erases_run _
  apply erases_onField "big_number" .string erases_replyBigNumber
  apply erases_replyVerbatim
  apply erases_onField "map" .table (erases_replyMap each)
  exact erases_onField "set" .table (erases_replySet each) (erases_replyArray each)

end Containers

/-- The notes change nothing, and the lines that are made in place are those of the texts. -/
theorem erases_luajitReplyToServerReply (resp fuel : Nat) :
    Erases (luajitReplyToServerReply rt fresh resp fuel)
      (ValkeyLuajit.luajitReplyToServerReply rt resp fuel) := by
  induction fuel with
  | zero => exact erases_run _
  | succ fuel inductionHypothesis =>
      apply erases_step
      intro value
      apply erases_step
      intro fits
      apply erases_ite
      · cases value with
        | table | hidden => exact erases_replyTable inductionHypothesis
        | number => exact erases_note (erases_step fun _ => erases_run _)
        | _ => exact erases_step fun _ => erases_run _
      · exact erases_step fun _ => erases_run _

end Erasure

section Lines

open Effect

/-- No line is sent. -/
def sameLines : Effect CallHost where
  allows before after := sentLines after.host.trace = sentLines before.host.trace
  refl _ := rfl
  trans first second := second.trans first

/-- Sending a token sends its line, if it is one. -/
theorem sentLines_reply (token : Token) (world : World CallHost) :
    sentLines (reply token world).world.host.trace =
      sentLines world.host.trace ++ (lineOf token).toList := by
  rw [reply_apply, sentLines, Outcome.world_done]
  dsimp only [World.setHost]
  rw [sentTokens_append, List.filterMap_append]
  cases token <;> rfl

/-- A reply that is no line adds none. -/
theorem sameLines_reply {token : Token} (other : lineOf token = none) :
    sameLines.Bounds (reply token) := by
  intro world
  have sent := sentLines_reply token world
  rw [other, Option.toList_none, List.append_nil] at sent
  exact sent

/-- An error reply is no line. -/
theorem sameLines_replyErrorTable (rt : Runtime) (found : Value) :
    sameLines.Bounds (replyErrorTable rt found) := by
  have reads : ∀ object key, sameLines.Bounds (luaIndex rt object key) :=
    fun _ _ => bounds_index fun _ _ _ => rfl
  refine bounds_bind (bounds_pop _) fun _ => ?_
  refine bounds_bind (bounds_extractErrorInformation reads) fun info => ?_
  exact bounds_bind (sameLines_reply rfl) fun _ => bounds_pop _

/-- A double is no line. -/
theorem sameLines_replyDouble (found : Value) : sameLines.Bounds (replyDouble found) :=
  bounds_bind (sameLines_reply rfl) fun _ => bounds_pop _

/-- The lines that were sent are the noted ones, each made of the text in its field, and a cast is
one to a `long long`. -/
structure Accounted (before : World CallHost) (notes : List ReplyNote) (after : World CallHost) :
    Prop where
  lines : sentLines after.host.trace =
    sentLines before.host.trace ++ notes.filterMap ReplyNote.line?
  texts : ∀ lua object name text, .line lua object name text ∈ notes →
    ∃ field, lua.field object name = .string field ∧ text = lineText field
  casts : ∀ cast, .cast cast ∈ notes → cast.type = .longLong

/-- The same along a sequence: the notes add up as the lines do. -/
def account : Account ReplyNote CallHost where
  allows := Accounted
  refl _ := ⟨by simp, by simp, by simp⟩
  trans early late :=
    { lines := by rw [late.lines, early.lines, List.filterMap_append, List.append_assoc]
      texts := fun lua object name text member =>
        (List.mem_append.mp member).elim (early.texts lua object name text)
          (late.texts lua object name text)
      casts := fun cast member =>
        (List.mem_append.mp member).elim (early.casts cast) (late.casts cast) }

/-- An operation that sends no line needs no note. -/
theorem covers_quiet {α : Type} {operation : LuaM CallHost α}
    (quiet : sameLines.Bounds operation) : account.Covers (run operation) := fun world =>
  { lines := (quiet world).trans (List.append_nil _).symm
    texts := by simp [run]
    casts := by simp [run] }

/-- An operation that sends no line may come before anything. -/
theorem covers_step {α β : Type} {operation : LuaM CallHost α}
    {next : α → Recorded ReplyNote CallHost β} (quiet : sameLines.Bounds operation)
    (after : ∀ value, account.Covers (next value)) : account.Covers (run operation >>= next) :=
  Account.covers_bind (covers_quiet quiet) after

section Handlers

variable {rt : Runtime} {fresh : List Event → Nat → UInt8}

/-- A handler accounts for what it does with a field of this name and type on the top. -/
def CoversField (name : String) (type : LuaType)
    (handle : Value → Recorded ReplyNote CallHost Unit) : Prop :=
  ∀ (world : World CallHost) (found : Value), world.lua.field (world.get (-2)) name = found →
    found.type = type → Accounted world (handle found world).notes (handle found world).outcome.world

/-- A handler that makes no line of the field. -/
theorem coversField_of_covers {handle : Value → Recorded ReplyNote CallHost Unit}
    (each : ∀ found, account.Covers (handle found)) (name : String) (type : LuaType) :
    CoversField name type handle := fun world found _ _ => each found world

/-- A line that is sent is noted with its field. -/
theorem coversField_replyLine {make : (Nat → UInt8) → Bytes → Option Bytes} (send : Bytes → Token)
    (name : String) (made : ∀ memory field, make memory field = some (lineText field))
    (isLine : ∀ text, lineOf (send text) = some (name, text)) :
    CoversField name .string fun found =>
      (do replyLine fresh make send name found; run (luaPop 2)) := by
  intro world found read isText
  obtain ⟨field, rfl⟩ : ∃ field, found = .string field := by
    cases found <;> cases isText
    exact ⟨_, rfl⟩
  have sent := sentLines_reply (send (lineText field)) world
  rw [isLine] at sent
  simp only [replyLine, makeLine_eq fun memory => made memory (Value.string field).stringBytes]
  exact
    { lines := sent
      texts := fun lua object other text member => by
        obtain ⟨rfl, rfl, rfl, rfl⟩ := ReplyNote.line.inj (List.mem_singleton.mp member)
        exact ⟨field, read, rfl⟩
      casts := fun cast member => by cases List.mem_singleton.mp member }

/-- The field that is handled lies on its table. -/
theorem covers_onField {field : String} {type : LuaType}
    {handle : Value → Recorded ReplyNote CallHost Unit}
    {otherwise : Recorded ReplyNote CallHost Unit} (handled : CoversField field type handle)
    (missing : account.Covers otherwise) :
    account.Covers (onField field type handle otherwise) := by
  rintro ⟨frame, base, breached, lua, host, calls⟩
  let object := (frame ++ base).getD 0 .nil
  let found := lua.field object field
  let top : World CallHost := ⟨found :: frame, base, breached, lua, host, calls⟩
  have fetched : onField field type handle otherwise ⟨frame, base, breached, lua, host, calls⟩ =
      (if found.type = type then handle found else do run (luaPop 1); otherwise) top := by
    rw [onField, step_of_done (luaPushString_apply _ _), step_of_done (luaRawGet_apply _ _),
      step_of_done (luaValue_apply _ _)]
    simp [top, found, object, State.field]
  have dropped : account.Covers (do run (luaPop 1); otherwise) :=
    covers_step (bounds_pop _) fun _ => missing
  rw [fetched]
  by_cases expected : found.type = type
  · rw [if_pos expected]
    have here := handled top found rfl expected
    exact ⟨here.lines, here.texts, here.casts⟩
  · rw [if_neg expected]
    have here := dropped top
    exact ⟨here.lines, here.texts, here.casts⟩

/-- The field `ok` is noted as it stands in the table, and its line is sent. -/
theorem coversField_replyStatus : CoversField "ok" .string (replyStatus fresh) :=
  coversField_replyLine .simple "ok" InPlace.statusLine_eq fun _ => rfl

/-- The field `big_number` is noted as it stands in the table, and its line is sent. -/
theorem coversField_replyBigNumber : CoversField "big_number" .string (replyBigNumber fresh) :=
  coversField_replyLine .bigNumber "big_number" InPlace.bigNumberLine_eq fun _ => rfl

/-- Sending another token and dropping what it was made of. -/
theorem covers_replyAndPop {token : Token} (other : lineOf token = none) (count : Nat) :
    account.Covers (do run (reply token); run (luaPop count)) :=
  covers_step (sameLines_reply other) fun _ => covers_quiet (bounds_pop _)

/-- The tests on a verbatim text send no line. -/
theorem covers_replyVerbatim {otherwise : Recorded ReplyNote CallHost Unit}
    (missing : account.Covers otherwise) : account.Covers (replyVerbatim otherwise) := by
  refine covers_step (bounds_push _) fun _ => covers_step (bounds_rawGet _) fun _ => ?_
  refine covers_step (bounds_value _) fun _ => Account.covers_ite ?_ ?_
  · refine covers_step (bounds_push _) fun _ => covers_step (bounds_rawGet _) fun _ => ?_
    refine covers_step (bounds_value _) fun _ => Account.covers_ite ?_ ?_
    · refine covers_step (bounds_push _) fun _ => covers_step (bounds_rawGet _) fun _ => ?_
      refine covers_step (bounds_value _) fun _ => Account.covers_ite (covers_replyAndPop rfl 4) ?_
      exact covers_step (bounds_pop _) fun _ => covers_step (bounds_pop _) fun _ =>
        covers_step (bounds_pop _) fun _ => missing
    · exact covers_step (bounds_pop _) fun _ => covers_step (bounds_pop _) fun _ => missing
  · exact covers_step (bounds_pop _) fun _ => missing

section Containers

variable {convert : Recorded ReplyNote CallHost Unit} (each : account.Covers convert)
include each

/-- Each round of the loop over a map sends the lines of a key and of a value. -/
theorem covers_replyMapLoop (fuel : Nat) : account.Covers (replyMapLoop convert fuel) := by
  induction fuel with
  | zero => exact covers_quiet (bounds_of_core fun _ => rfl)
  | succ fuel inductionHypothesis =>
      refine covers_step (bounds_next _) fun more => Account.covers_ite ?_ (Account.covers_pure 0)
      refine covers_step (bounds_pushValue _) fun _ => Account.covers_bind each fun _ => ?_
      refine Account.covers_bind each fun _ => Account.covers_bind inductionHypothesis fun _ => ?_
      exact Account.covers_pure _

/-- Each round of the loop over a set sends the lines of an element. -/
theorem covers_replySetLoop (fuel : Nat) : account.Covers (replySetLoop convert fuel) := by
  induction fuel with
  | zero => exact covers_quiet (bounds_of_core fun _ => rfl)
  | succ fuel inductionHypothesis =>
      refine covers_step (bounds_next _) fun more => Account.covers_ite ?_ (Account.covers_pure 0)
      refine covers_step (bounds_pop _) fun _ => covers_step (bounds_pushValue _) fun _ => ?_
      refine Account.covers_bind each fun _ => Account.covers_bind inductionHypothesis fun _ => ?_
      exact Account.covers_pure _

/-- Each round of the loop over an array sends the lines of an element. -/
theorem covers_replyArrayLoop (fuel j : Nat) :
    account.Covers (replyArrayLoop convert fuel j) := by
  induction fuel generalizing j with
  | zero => exact covers_quiet (bounds_of_core fun _ => rfl)
  | succ fuel inductionHypothesis =>
      refine covers_step (bounds_push _) fun _ => covers_step (bounds_rawGet _) fun _ => ?_
      refine covers_step (bounds_value _) fun _ => Account.covers_ite ?_ ?_
      · exact covers_step (bounds_pop _) fun _ => Account.covers_pure 0
      · refine Account.covers_bind each fun _ => ?_
        exact Account.covers_bind (inductionHypothesis (j + 1)) fun _ => Account.covers_pure _

/-- A map sends the lines of what it holds. -/
theorem covers_replyMap (found : Value) : account.Covers (replyMap convert found) := by
  refine covers_step (sameLines_reply rfl) fun _ => ?_
  refine covers_step (bounds_of_core fun _ => rfl) fun bound => ?_
  refine covers_step (bounds_push _) fun _ => ?_
  exact Account.covers_bind (covers_replyMapLoop each bound) fun _ => covers_replyAndPop rfl 2

/-- A set sends the lines of what it holds. -/
theorem covers_replySet (found : Value) : account.Covers (replySet convert found) := by
  refine covers_step (sameLines_reply rfl) fun _ => ?_
  refine covers_step (bounds_of_core fun _ => rfl) fun bound => ?_
  refine covers_step (bounds_push _) fun _ => ?_
  exact Account.covers_bind (covers_replySetLoop each bound) fun _ => covers_replyAndPop rfl 2

/-- An array sends the lines of what it holds. -/
theorem covers_replyArray : account.Covers (replyArray convert) := by
  refine covers_step (sameLines_reply rfl) fun _ => ?_
  refine covers_step (bounds_of_core fun _ => rfl) fun bound => ?_
  exact Account.covers_bind (covers_replyArrayLoop each bound 1) fun _ => covers_replyAndPop rfl 1

/-- Whichever test on a table succeeds, the lines sent are noted. -/
theorem covers_replyTable : account.Covers (replyTable rt fresh convert) := by
  have plain := @coversField_of_covers
  apply covers_onField (plain (fun _ => covers_quiet (sameLines_replyErrorTable rt _)) "err" .string)
  apply covers_onField coversField_replyStatus
  apply covers_onField (plain (fun _ => covers_quiet (sameLines_replyDouble _)) "double" .number)
  apply covers_onField coversField_replyBigNumber
  apply covers_replyVerbatim
  apply covers_onField (plain (covers_replyMap each) "map" .table)
  exact covers_onField (plain (covers_replySet each) "set" .table) (covers_replyArray each)

end Containers

/-- At every depth the notes account for the lines. -/
theorem covers_luajitReplyToServerReply (resp fuel : Nat) :
    account.Covers (luajitReplyToServerReply rt fresh resp fuel) := by
  induction fuel with
  | zero => exact covers_quiet (bounds_of_core fun _ => rfl)
  | succ fuel inductionHypothesis =>
      refine covers_step (bounds_value _) fun value => covers_step (bounds_checkStack _) fun fits => ?_
      refine Account.covers_ite ?_ (covers_replyAndPop rfl 1)
      cases value with
      | table | hidden => exact covers_replyTable inductionHypothesis
      | boolean flag =>
          refine covers_replyAndPop ?_ 1
          split
          · split <;> rfl
          · rfl
      | number number =>
          refine Account.covers_bind (fun world => ?_) fun _ => covers_replyAndPop rfl 1
          exact
            { lines := (List.append_nil _).symm
              texts := fun _ _ _ _ member => by cases List.mem_singleton.mp member
              casts := fun cast member => by
                obtain rfl := ReplyNote.cast.inj (List.mem_singleton.mp member)
                rfl }
      | _ => exact covers_replyAndPop rfl 1

end Handlers

end Lines

/-- Every line of a reply is the raw `ok` or `big_number` field it was made of, up to the first
NUL and with its line ends blanked; no line end is left to break the protocol. -/
theorem reply_lines_blanked (rt : Runtime) (fresh : List Event → Nat → UInt8) (resp fuel : Nat)
    (world : World CallHost) :
    let report := luajitReplyToServerReply rt fresh resp fuel world
    report.outcome = ValkeyLuajit.luajitReplyToServerReply rt resp fuel world ∧
      sentLines report.outcome.world.host.trace =
        sentLines world.host.trace ++ report.notes.filterMap ReplyNote.line? ∧
      ∀ lua object name text, .line lua object name text ∈ report.notes →
        ∃ field, lua.field object name = .string field ∧
          text = (cString field).map blanked ∧ 13 ∉ text ∧ 10 ∉ text := by
  intro report
  have accounted : Accounted world report.notes report.outcome.world :=
    covers_luajitReplyToServerReply resp fuel world
  refine ⟨erases_luajitReplyToServerReply resp fuel world, accounted.lines, ?_⟩
  intro lua object name text member
  obtain ⟨field, read, rfl⟩ := accounted.texts lua object name text member
  refine ⟨field, read, lineText_eq field, ?_, ?_⟩
  · exact fun carriage => (mem_lineText carriage).1 rfl
  · exact fun feed => (mem_lineText feed).2.1 rfl

end ValkeyLuajit.Noted
