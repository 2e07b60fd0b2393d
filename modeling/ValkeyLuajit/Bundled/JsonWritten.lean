import ValkeyLuajit.Bundled.JsonEncode
import ValkeyLuajit.Library.Json

/-!
# What the JSON encoder writes

A Lua value describes a tree, or something in it cannot be said. The encoder writes the compact
text of the tree, or the beginning of a text up to the first thing that cannot be said, and it
never writes outside of its buffer.
-/

namespace ValkeyLuajit

open Lua

/-- A value that is a number is one of a `double`. -/
def Lua.Value.IsDouble (value : Value) : Prop := ∀ num, value = .number num → num.IsDouble

/-- The numbers in a table are those of a `double`. -/
def Lua.Table.Doubles (table : Table) : Prop :=
  ∀ entry ∈ table.entries.entries, entry.1.IsDouble ∧ entry.2.IsDouble

/-- So are all numbers on the heap. -/
def Lua.Heap.Doubles (heap : Heap) : Prop := ∀ addr, (heap.cells addr).Doubles

/-- The text of a character inside of quotation marks. -/
def jsonCharText (char : UInt8) : Bytes := (char2escape char).getD [char]

/-- Nothing is written of a value that cannot be said. -/
def jsonRefused (value : Value) (reason : String) : Written JsonStop :=
  .given (jsonEncodeException (α := Unit) value reason) fun _ => .whole []

variable (host : JsonHost) (cfg : JsonConfig)

/-- The text of a number. -/
def jsonNumberText (num : Number) : Bytes := formatG dot cfg.encodeNumberPrecision num

/-- The compact text of a tree. -/
def jsonText (tree : Json Number) : Bytes := tree.print (jsonNumberText cfg) jsonCharText

/-- What is written of a string. -/
def jsonStringWritten (str : Bytes) : Written JsonStop := .whole (Json.quoted jsonCharText str)

/-- What is written of a number. -/
def jsonNumberWritten (num : Number) : Written JsonStop :=
  match cfg.encodeInvalidNumbers, num with
  | _, .finite _ => .whole (jsonNumberText cfg num)
  | .off, _ => jsonRefused (.number num) "must not be NaN or Inf"
  | .on, _ => .whole (jsonNumberText cfg num)
  | .null, _ => .whole (bytes "null")

/-- What is written in front of an element. -/
def jsonCommaWritten (comma : Bool) : Written JsonStop := .whole (if comma then [0x2c] else [])

/-- What is written of a key. -/
def jsonKeyWritten : Value → Written JsonStop
  | .number num => (Written.whole [0x22]).followedBy
      ((jsonNumberWritten cfg num).followedBy (.whole [0x22, 0x3a]))
  | .string str => (jsonStringWritten str).followedBy (.whole [0x3a])
  | key => jsonRefused key "table key must be a number or string"

section

variable (written : (height : Nat) → Value → Written JsonStop)

/-- What is written of the elements of an array, the first one behind a comma or not. -/
def jsonElementsWritten (table : Table) (height : Nat) :
    (rounds i : Nat) → (comma : Bool) → Written JsonStop
  | 0, _, _ => .whole []
  | rounds + 1, i, comma => (jsonCommaWritten comma).followedBy
      ((written (height + 1) (table.rawGet (.number (.finite i)))).followedBy
        (jsonElementsWritten table height rounds (i + 1) true))

/-- What is written of the entries of an object, in the order of the traversal. -/
def jsonEntriesWritten (height : Nat) :
    List (Sigma fun _ : Value => Value) → (comma : Bool) → Written JsonStop
  | [], _ => .whole []
  | entry :: rest, comma => (jsonCommaWritten comma).followedBy
      ((jsonKeyWritten cfg entry.1).followedBy
        ((written (height + 2) entry.2).followedBy (jsonEntriesWritten height rest true)))

/-- The counter of the loop cannot go beyond the last `int`. -/
def jsonCounted (length : Nat) : Except JsonStop Unit :=
  if length = 2 ^ 31 - 1 then .error .overflow else .ok ()

/-- What is written of a table. -/
def jsonTableWritten (addr : Addr) (table : Table) (currentDepth height : Nat) : Written JsonStop :=
  .given (jsonCheckEncodeDepth cfg currentDepth height) fun _ =>
    .given (luaArrayLength host cfg addr table) fun len =>
      if 0 < len then
        (Written.whole [0x5b]).followedBy
          ((jsonElementsWritten written table height len.toNat 1 false).followedBy
            (.given (jsonCounted len.toNat) fun _ => .whole [0x5d]))
      else
        (Written.whole [0x7b]).followedBy
          ((jsonEntriesWritten cfg written height table.entries.entries false).followedBy
            (.whole [0x7d]))

end

section

variable (describe : (height : Nat) → Value → Except JsonStop (Json Number))

/-- The tree of a number. -/
def jsonNumberTree (num : Number) : Except JsonStop (Json Number) :=
  match cfg.encodeInvalidNumbers, num with
  | _, .finite _ => .ok (.number num)
  | .off, _ => jsonEncodeException (.number num) "must not be NaN or Inf"
  | .on, _ => .ok (.number num)
  | .null, _ => .ok .null

/-- The characters of a key. -/
def jsonKeyChars : Value → Except JsonStop Bytes
  | .number num => do
      let tree ← jsonNumberTree cfg num
      .ok (jsonText cfg tree)
  | .string str => .ok str
  | key => jsonEncodeException key "table key must be a number or string"

/-- A member of an object. -/
def jsonMemberTree (height : Nat) (entry : Sigma fun _ : Value => Value) :
    Except JsonStop (Bytes × Json Number) := do
  let key ← jsonKeyChars cfg entry.1
  let value ← describe (height + 2) entry.2
  .ok (key, value)

/-- The tree of a table. -/
def jsonTableTree (addr : Addr) (table : Table) (currentDepth height : Nat) :
    Except JsonStop (Json Number) := do
  jsonCheckEncodeDepth cfg currentDepth height
  let len ← luaArrayLength host cfg addr table
  if 0 < len then
    let elements ← (List.range' 1 len.toNat).mapM fun i : Nat =>
      describe (height + 1) (table.rawGet (.number (.finite i)))
    jsonCounted len.toNat
    .ok (.array elements)
  else
    let members ← table.entries.entries.mapM (jsonMemberTree cfg describe height)
    .ok (.object members)

end

variable (heap : Heap)

/-- What is written of a value. -/
def jsonWritten : (levels currentDepth height : Nat) → Value → Written JsonStop
  | _, _, _, .string str => jsonStringWritten str
  | _, _, _, .number num => jsonNumberWritten cfg num
  | _, _, _, .boolean flag => .whole (bytes (if flag then "true" else "false"))
  | 0, currentDepth, height, .table addr =>
      jsonTableWritten host cfg (fun _ _ => .stopped .endless) addr (heap.cells addr)
        (currentDepth + 1) height
  | levels + 1, currentDepth, height, .table addr =>
      jsonTableWritten host cfg (jsonWritten levels (currentDepth + 1)) addr (heap.cells addr)
        (currentDepth + 1) height
  | _, _, _, .nil => .whole (bytes "null")
  | _, _, _, .lightuserdata 0 => .whole (bytes "null")
  | _, _, _, value => jsonRefused value "type not supported"

/-- The tree that a value describes, or the first thing that cannot be said. -/
def jsonTree : (levels currentDepth height : Nat) → Value → Except JsonStop (Json Number)
  | _, _, _, .string str => .ok (.string str)
  | _, _, _, .number num => jsonNumberTree cfg num
  | _, _, _, .boolean flag => .ok (.boolean flag)
  | 0, currentDepth, height, .table addr =>
      jsonTableTree host cfg (fun _ _ => .error .endless) addr (heap.cells addr)
        (currentDepth + 1) height
  | levels + 1, currentDepth, height, .table addr =>
      jsonTableTree host cfg (jsonTree levels (currentDepth + 1)) addr (heap.cells addr)
        (currentDepth + 1) height
  | _, _, _, .nil => .ok .null
  | _, _, _, .lightuserdata 0 => .ok .null
  | _, _, _, value => jsonEncodeException value "type not supported"

section Leaves

variable {host : JsonHost} {cfg : JsonConfig}

/-- A value that is refused stops the writing. -/
theorem writes_jsonEncodeException (value : Value) (reason : String) :
    strbufSink.Writes (liftM (jsonEncodeException value reason : Except JsonStop Unit) : JsonM Unit)
      (jsonRefused value reason) := Sink.writes_throw _

/-- A character is written as it is. -/
theorem writes_appendChar (c : UInt8) : strbufSink.Writes (appendChar c) (.whole [c]) :=
  writes_strbufAppendChar c

/-- So is a text. -/
theorem writes_appendMem (c : Bytes) : strbufSink.Writes (appendMem c) (.whole c) :=
  writes_strbufAppendMem c

/-- The loop writes the text of each character. -/
theorem writes_jsonAppendChars (str : Bytes) :
    strbufSink.Writes (jsonAppendChars str) (.whole (str.flatMap jsonCharText)) := by
  induction str with
  | nil => exact Sink.writes_pure
  | cons char str inductionHypothesis =>
      rw [jsonAppendChars, List.flatMap_cons, jsonCharText]
      cases char2escape char with
      | none => exact (writes_appendChar char).followedBy inductionHypothesis
      | some escstr => exact (writes_strbufAppendString escstr).followedBy inductionHypothesis

/-- Every character has a text. -/
theorem length_jsonCharText (char : UInt8) : 1 ≤ (jsonCharText char).length := by
  cases escape : char2escape char with
  | none => simp [jsonCharText, escape]
  | some escstr =>
      rw [jsonCharText, escape, Option.getD_some]
      unfold char2escape at escape
      split at escape
      case h_9 =>
        split at escape
        · cases escape
          simp
        · cases escape
      all_goals
        cases escape
        exact Nat.le_add_left 1 1

/-- A string is no longer than its text. -/
theorem length_le_flatMap (str : Bytes) : str.length ≤ (str.flatMap jsonCharText).length := by
  induction str with
  | nil => exact Nat.zero_le _
  | cons char str inductionHypothesis =>
      have one := length_jsonCharText char
      rw [List.flatMap_cons, List.length_append, List.length_cons]
      omega

/-- A string is written with quotation marks and escapes. -/
theorem writes_jsonAppendString (str : Bytes) :
    strbufSink.Writes (jsonAppendString str) (jsonStringWritten str) := by
  have longer := length_le_flatMap str
  rw [jsonAppendString]
  split
  · rename_i huge
    intro state text _ short
    rw [limit_strbufSink, jsonStringWritten, Json.quoted, Written.text_whole, List.length_cons,
      List.length_append, List.length_singleton] at short
    rw [sizeMax] at huge
    omega
  · have after := (writes_jsonAppendChars str).followedBy (writes_appendChar 0x22)
    refine (after.startedBy ?_ : strbufSink.Writes _ ((Written.whole [0x22]).followedBy _))
    intro state text holds short
    rw [limit_strbufSink, List.length_singleton, Written.whole_followedBy, Written.text_whole,
      List.length_append, List.length_singleton] at short
    have room : text.length + (str.length + 2) + 1 < 2 ^ 64 := by omega
    obtain ⟨grown, ensured, same, enough⟩ := strbufEnsureEmptyLength_holds holds room
    obtain ⟨middle, stored, here, -⟩ := strbufAppendMemUnsafe_holds (c := [0x22]) same
      (by rw [List.length_singleton]; omega)
    exact ⟨middle, Writer.step_ok (ok_of_steps ensured stored), here⟩

/-- A text that is put into the buffer with a NUL behind it, which is not counted. -/
theorem StrBuf.Holds.put_nul {s : StrBuf} {text c : Bytes} (holds : s.Holds text)
    (room : text.length + c.length + 1 ≤ s.size) : ∃ middle, s.put (c ++ [0]) = .ok middle ∧
      (strbufExtendLength middle c.length).Holds (text ++ c) := by
  have size := holds.size
  have length := holds.length
  obtain ⟨buf, stored, same, front⟩ := StrBuf.put_of_le (s := s) (c := c ++ [0])
    (by rw [List.length_append, List.length_singleton]; omega)
  refine ⟨_, stored, size.trans same.symm, ?_, ?_, holds.small, ?_⟩
  · simp [strbufExtendLength, length]
  · simp only [strbufExtendLength]
    omega
  · have whole : s.buf.take s.length ++ (c ++ [0]) = (text ++ c) ++ [0] := by
      rw [holds.text, List.append_assoc]
    have counted : s.length + c.length = (text ++ c).length := by rw [length, List.length_append]
    have shorter := congrArg (List.take (s.length + c.length)) front
    rw [List.take_take, Nat.min_eq_left (by simp), whole, counted, List.take_left] at shorter
    simpa [strbufExtendLength, length] using shorter

variable {num : Number}

/-- The number fits in what is kept free for it. -/
theorem length_jsonNumberText (double : num.IsDouble) : (jsonNumberText cfg num).length ≤ 22 := by
  cases num with
  | finite value =>
      have length := Scientific.length_text_general (decide (value < 0)) dot
        (scale_bounds (cfg.encodeNumberPrecision - 1) double)
      have few := cfg.precision.2
      rw [jsonNumberText, formatG]
      omega
  | infinite negative =>
      cases negative <;> exact Nat.le_of_ble_eq_true rfl
  | nan => exact Nat.le_of_ble_eq_true rfl

/-- A number is written as its text. -/
theorem writes_jsonAppendGFmt (double : num.IsDouble) :
    strbufSink.Writes (jsonAppendGFmt host cfg num) (.whole (jsonNumberText cfg num)) := by
  have length : (jsonNumberText cfg num).length ≤ 22 := length_jsonNumberText double
  have formatted : fpconvGFmt host.point num cfg.encodeNumberPrecision =
      (jsonNumberText cfg num ++ [0], (jsonNumberText cfg num).length) := by
    cases num with
    | finite value => exact fpconvGFmt_finite host.isPoint double cfg.precision.2
    | infinite negative => exact fpconvGFmt_name _ host.isPoint fun _ same => by cases same
    | nan => exact fpconvGFmt_name _ host.isPoint fun _ same => by cases same
  apply writes_step
  intro s text holds short
  have room : text.length + fpconvGFmtBufsize + 1 < 2 ^ 64 := by
    rw [fpconvGFmtBufsize]
    omega
  obtain ⟨grown, ensured, same, enough⟩ := strbufEnsureEmptyLength_holds holds room
  rw [fpconvGFmtBufsize] at enough
  obtain ⟨middle, stored, here⟩ := same.put_nul (c := jsonNumberText cfg num) (by omega)
  refine ⟨_, ok_of_steps ensured ?_, here⟩
  rw [formatted]
  exact ok_of_steps stored rfl

/-- A number is written as the settings say. -/
theorem writes_jsonAppendNumber (double : num.IsDouble) :
    strbufSink.Writes (jsonAppendNumber host cfg num) (jsonNumberWritten cfg num) := by
  cases setting : cfg.encodeInvalidNumbers <;> cases num <;>
    simp only [jsonAppendNumber, jsonNumberWritten, setting]
  case off.finite | on.finite | null.finite => exact writes_jsonAppendGFmt double
  case off.infinite | off.nan => exact writes_jsonEncodeException _ _
  case on.infinite => exact writes_jsonAppendGFmt double
  case on.nan => exact writes_appendMem _
  case null.infinite | null.nan => exact writes_appendMem _

end Leaves

section Tables

variable {host : JsonHost} {cfg : JsonConfig} {append : (height : Nat) → Value → JsonM Unit}
  {written : (height : Nat) → Value → Written JsonStop} {table : Table} {height : Nat}

/-- What a table of doubles holds is a double, if it is a number. -/
theorem Lua.Table.Doubles.rawGet (doubles : table.Doubles) (key : Value) :
    (table.rawGet key).IsDouble := by
  intro num same
  cases found : table.entries.lookup key with
  | none =>
      rw [Table.rawGet, found] at same
      cases same
  | some value =>
      rw [Table.rawGet, found] at same
      exact (doubles _ (AList.mem_lookup_iff.mp found)).2 num same

/-- A comma is written before every element but the first. -/
theorem writes_jsonComma (comma : Bool) :
    strbufSink.Writes (jsonComma comma) (jsonCommaWritten comma) := by
  cases comma with
  | true => exact writes_appendChar 0x2c
  | false => exact Sink.writes_pure

variable (appends : ∀ height value, value.IsDouble →
  strbufSink.Writes (append height value) (written height value))

include appends

/-- The loop over an array writes its elements, when the recursion writes values. -/
theorem writes_jsonAppendElements (doubles : table.Doubles) (rounds i : Nat) (comma : Bool) :
    strbufSink.Writes (jsonAppendElements append table height rounds i comma)
      (jsonElementsWritten written table height rounds i comma) := by
  induction rounds generalizing i comma with
  | zero => exact Sink.writes_pure
  | succ rounds inductionHypothesis =>
      exact (writes_jsonComma comma).followedBy
        ((appends (height + 1) _ (doubles.rawGet _)).followedBy (inductionHypothesis (i + 1) true))

/-- An array is written between its brackets. -/
theorem writes_jsonAppendArray (doubles : table.Doubles) (length : Nat) :
    strbufSink.Writes (jsonAppendArray append table height length)
      ((Written.whole [0x5b]).followedBy
        ((jsonElementsWritten written table height length 1 false).followedBy
          (.given (jsonCounted length) fun _ => .whole [0x5d]))) := by
  apply (writes_appendChar 0x5b).followedBy
  apply (writes_jsonAppendElements appends doubles length 1 false).followedBy
  rw [jsonCounted]
  split
  · exact Sink.writes_throw _
  · exact writes_appendChar 0x5d

omit appends in
/-- A key is written as a string, or refused. -/
theorem writes_jsonAppendKey {key : Value} (double : key.IsDouble) :
    strbufSink.Writes (jsonAppendKey host cfg key) (jsonKeyWritten cfg key) := by
  cases key with
  | number num =>
      exact (writes_appendChar 0x22).followedBy
        ((writes_jsonAppendNumber (double num rfl)).followedBy (writes_appendMem _))
  | string str => exact (writes_jsonAppendString str).followedBy (writes_appendChar 0x3a)
  | _ => exact writes_jsonEncodeException _ _

/-- The loop over a table writes its entries, when the recursion writes values. -/
theorem writes_jsonAppendEntries {entries : List (Sigma fun _ : Value => Value)}
    (doubles : ∀ entry ∈ entries, entry.1.IsDouble ∧ entry.2.IsDouble) (comma : Bool) :
    strbufSink.Writes (jsonAppendEntries host cfg append height entries comma)
      (jsonEntriesWritten cfg written height entries comma) := by
  induction entries generalizing comma with
  | nil => exact Sink.writes_pure
  | cons entry rest inductionHypothesis =>
      have here := doubles entry List.mem_cons_self
      have later := inductionHypothesis fun other member => doubles other (List.mem_cons_of_mem _ member)
      exact (writes_jsonComma comma).followedBy ((writes_jsonAppendKey here.1).followedBy
        ((appends (height + 2) _ here.2).followedBy (later true)))

/-- A table is written as an array or as an object, or refused. -/
theorem writes_jsonAppendTable (doubles : table.Doubles) (addr : Addr) (currentDepth : Nat) :
    strbufSink.Writes (jsonAppendTable host cfg append addr table currentDepth height)
      (jsonTableWritten host cfg written addr table currentDepth height) := by
  apply Sink.Writes.given
  intro _ _
  apply Sink.Writes.given
  intro len _
  split
  · exact writes_jsonAppendArray appends doubles len.toNat
  · exact (writes_appendChar 0x7b).followedBy
      ((writes_jsonAppendEntries appends doubles false).followedBy (writes_appendChar 0x7d))

end Tables

section Values

variable {host : JsonHost} {cfg : JsonConfig} {heap : Heap}

/-- A value that is no table is written at any depth. -/
theorem writes_scalar (levels currentDepth height : Nat) {value : Value}
    (scalar : ∀ addr, value ≠ .table addr) (double : value.IsDouble) :
    strbufSink.Writes (jsonAppendData host cfg heap levels currentDepth height value)
      (jsonWritten host cfg heap levels currentDepth height value) := by
  cases value with
  | table addr => exact absurd rfl (scalar addr)
  | string str => simpa only [jsonAppendData, jsonWritten] using writes_jsonAppendString str
  | number num =>
      simpa only [jsonAppendData, jsonWritten] using writes_jsonAppendNumber (double num rfl)
  | boolean flag => simpa only [jsonAppendData, jsonWritten] using writes_appendMem _
  | nil => simpa only [jsonAppendData, jsonWritten] using writes_appendMem _
  | lightuserdata pointer =>
      cases pointer with
      | zero => simpa only [jsonAppendData, jsonWritten] using writes_appendMem _
      | succ pointer =>
          simpa only [jsonAppendData, jsonWritten] using writes_jsonEncodeException _ _
  | _ => simpa only [jsonAppendData, jsonWritten] using writes_jsonEncodeException _ _

/-- The encoder writes what it should, whatever the tables on the heap refer to. -/
theorem writes_jsonAppendData (doubles : heap.Doubles) (levels currentDepth height : Nat)
    {value : Value} (double : value.IsDouble) :
    strbufSink.Writes (jsonAppendData host cfg heap levels currentDepth height value)
      (jsonWritten host cfg heap levels currentDepth height value) := by
  induction levels generalizing currentDepth height value with
  | zero =>
      by_cases isTable : ∃ addr, value = .table addr
      · obtain ⟨addr, rfl⟩ := isTable
        simp only [jsonAppendData, jsonWritten]
        exact writes_jsonAppendTable (fun _ _ _ => Sink.writes_throw _) (doubles addr) addr _
      · exact writes_scalar 0 _ _ (not_exists.mp isTable) double
  | succ levels inductionHypothesis =>
      by_cases isTable : ∃ addr, value = .table addr
      · obtain ⟨addr, rfl⟩ := isTable
        simp only [jsonAppendData, jsonWritten]
        exact writes_jsonAppendTable (fun height value double => inductionHypothesis _ _ double)
          (doubles addr) addr _
      · exact writes_scalar (levels + 1) _ _ (not_exists.mp isTable) double

end Values

section Trees

variable {host : JsonHost} {cfg : JsonConfig} {num : Number}

/-- What numbers are made of needs no escape. -/
theorem jsonCharText_of_valid {char : UInt8} (valid : validNumberCharacter char = true) :
    jsonCharText char = [char] := by
  have all : ∀ n : Fin 256, validNumberCharacter (UInt8.ofNat n) = true →
      char2escape (UInt8.ofNat n) = none := by decide +kernel
  have none := all ⟨char.toNat, char.toNat_lt⟩ (by rwa [UInt8.ofNat_toNat])
  rw [UInt8.ofNat_toNat] at none
  rw [jsonCharText, none, Option.getD_none]

/-- The text of a number has only characters of numbers. -/
theorem valid_formatG (precision : Nat) (num : Number) :
    ∀ char ∈ formatG dot precision num, validNumberCharacter char = true := by
  cases num with
  | finite value =>
      obtain ⟨front, back, chars, text | ⟨-, text⟩⟩ := Scientific.text_parts
        (Scientific.general (precision - 1) (decide (value < 0)) |value|)
      · intro char member
        rw [formatG, text] at member
        rcases List.mem_append.mp member with member | member
        · exact (chars char (List.mem_append_left _ member)).1
        · rcases List.mem_cons.mp member with rfl | member
          · decide
          · exact (chars char (List.mem_append_right _ member)).1
      · intro char member
        rw [formatG, text] at member
        exact (chars char (List.mem_append_left _ member)).1
  | infinite negative => cases negative <;> exact List.all_eq_true.mp rfl
  | nan => exact List.all_eq_true.mp rfl

/-- The text of a number is the same between quotation marks. -/
theorem flatMap_jsonText {tree : Json Number} (described : jsonNumberTree cfg num = .ok tree) :
    (jsonText cfg tree).flatMap jsonCharText = jsonText cfg tree := by
  have plain (text : Bytes) (valid : ∀ char ∈ text, validNumberCharacter char = true) :
      text.flatMap jsonCharText = text := by
    rw [List.flatMap_congr fun char member => jsonCharText_of_valid (valid char member)]
    exact List.flatMap_singleton' text
  have number : tree = .number num ∨ tree = .null := by
    revert described
    cases setting : cfg.encodeInvalidNumbers <;> cases num <;>
      simp +contextual [jsonNumberTree, jsonEncodeException, setting, eq_comm]
  rcases number with rfl | rfl
  · exact plain _ (valid_formatG _ num)
  · exact plain (bytes "null") (List.all_eq_true.mp rfl)

/-- What is written of a number is the text of its tree. -/
theorem result_jsonNumberWritten (num : Number) :
    (jsonNumberWritten cfg num).result = (jsonNumberTree cfg num).map (jsonText cfg) := by
  cases setting : cfg.encodeInvalidNumbers <;> cases num <;>
    simp only [jsonNumberWritten, jsonNumberTree, setting] <;> rfl

/-- What is written of a key is the text of its name. -/
theorem result_jsonKeyWritten (key : Value) : (jsonKeyWritten cfg key).result =
    (jsonKeyChars cfg key).map fun chars => Json.quoted jsonCharText chars ++ [0x3a] := by
  cases key with
  | number num =>
      rw [jsonKeyWritten, jsonKeyChars, Written.result_followedBy, Written.result_followedBy,
        result_jsonNumberWritten]
      cases described : jsonNumberTree cfg num with
      | error stop => rfl
      | ok tree =>
          have same := flatMap_jsonText described
          simp [Written.result_whole, Json.quoted, same, bind, Except.bind, Except.map]
  | string str => rfl
  | _ => rfl

/-- Texts in a list, the first one behind a comma or not. -/
def listed (comma : Bool) (texts : List Bytes) : Bytes :=
  if comma then texts.flatMap (0x2c :: ·) else Json.separated texts

/-- The first text of a list, with its comma, and the rest behind commas. -/
theorem listed_cons (comma : Bool) (first : Bytes) (rest : List Bytes) :
    listed comma (first :: rest) = (if comma then [0x2c] else []) ++ (first ++ listed true rest) := by
  cases comma <;> rfl

variable {written : (height : Nat) → Value → Written JsonStop}
  {describe : (height : Nat) → Value → Except JsonStop (Json Number)} {table : Table} {height : Nat}
  (each : ∀ height value, (written height value).result = (describe height value).map (jsonText cfg))

include each

/-- What is written of elements is the texts of their trees in a list. -/
theorem result_jsonElementsWritten (rounds i : Nat) (comma : Bool) :
    (jsonElementsWritten written table height rounds i comma).result =
      ((List.range' i rounds).mapM fun i : Nat =>
        describe (height + 1) (table.rawGet (.number (.finite i)))).map fun elements =>
          listed comma (Json.printEach (jsonNumberText cfg) jsonCharText elements) := by
  induction rounds generalizing i comma with
  | zero => cases comma <;> rfl
  | succ rounds inductionHypothesis =>
      rw [jsonElementsWritten, jsonCommaWritten, Written.result_followedBy, Written.result_followedBy,
        each, inductionHypothesis, List.range'_succ, List.mapM_cons]
      cases describe (height + 1) (table.rawGet (.number (.finite i))) with
      | error stop => rfl
      | ok element =>
          cases (List.range' (i + 1) rounds).mapM fun i : Nat =>
              describe (height + 1) (table.rawGet (.number (.finite i))) with
          | error stop => rfl
          | ok elements =>
              simp [Written.result_whole, bind, Except.bind, Except.map, pure, Except.pure,
                Json.printEach, listed_cons, jsonText]

/-- What is written of entries is the texts of their members in a list. -/
theorem result_jsonEntriesWritten (entries : List (Sigma fun _ : Value => Value)) (comma : Bool) :
    (jsonEntriesWritten cfg written height entries comma).result =
      (entries.mapM (jsonMemberTree cfg describe height)).map fun members =>
        listed comma (Json.printMembers (jsonNumberText cfg) jsonCharText members) := by
  induction entries generalizing comma with
  | nil => cases comma <;> rfl
  | cons entry rest inductionHypothesis =>
      rw [jsonEntriesWritten, jsonCommaWritten, Written.result_followedBy, Written.result_followedBy,
        Written.result_followedBy, each, inductionHypothesis, result_jsonKeyWritten, List.mapM_cons,
        jsonMemberTree]
      cases jsonKeyChars cfg entry.1 with
      | error stop => rfl
      | ok key =>
          cases describe (height + 2) entry.2 with
          | error stop => rfl
          | ok value =>
              cases rest.mapM (jsonMemberTree cfg describe height) with
              | error stop => rfl
              | ok members =>
                  simp [Written.result_whole, bind, Except.bind, Except.map, pure, Except.pure,
                    Json.printMembers, listed_cons, jsonText]

omit each in
/-- The counter decides before the bracket is written. -/
theorem result_jsonCounted (length : Nat) (text : Bytes) :
    (Written.given (jsonCounted length) fun _ => .whole text).result =
      (jsonCounted length).map fun _ => text := by
  cases jsonCounted length <;> rfl

/-- What is written of a table is the text of its tree. -/
theorem result_jsonTableWritten (addr : Addr) (currentDepth : Nat) :
    (jsonTableWritten host cfg written addr table currentDepth height).result =
      (jsonTableTree host cfg describe addr table currentDepth height).map (jsonText cfg) := by
  rw [jsonTableWritten, jsonTableTree, Written.result_given]
  cases jsonCheckEncodeDepth cfg currentDepth height with
  | error stop => rfl
  | ok _ =>
      change Written.result _ = Except.map _ (luaArrayLength host cfg addr table >>= _)
      rw [Written.result_given]
      cases luaArrayLength host cfg addr table with
      | error stop => rfl
      | ok len =>
          change Written.result (if 0 < len then _ else _) = Except.map _ (if 0 < len then _ else _)
          split
          · rw [Written.result_followedBy, Written.result_followedBy,
              result_jsonElementsWritten each, result_jsonCounted]
            cases (List.range' 1 len.toNat).mapM fun i : Nat =>
                describe (height + 1) (table.rawGet (.number (.finite i))) with
            | error stop => rfl
            | ok elements =>
                cases jsonCounted len.toNat with
                | error stop => rfl
                | ok _ => rfl
          · rw [Written.result_followedBy, Written.result_followedBy, result_jsonEntriesWritten each]
            cases table.entries.entries.mapM (jsonMemberTree cfg describe height) with
            | error stop => rfl
            | ok members => rfl

end Trees

section Descriptions

variable {host : JsonHost} {cfg : JsonConfig} {heap : Heap}

/-- What is written of another value is the text of its tree. -/
theorem result_scalar (levels currentDepth height : Nat) {value : Value}
    (scalar : ∀ addr, value ≠ .table addr) :
    (jsonWritten host cfg heap levels currentDepth height value).result =
      (jsonTree host cfg heap levels currentDepth height value).map (jsonText cfg) := by
  cases value with
  | table addr => exact absurd rfl (scalar addr)
  | number num => simpa only [jsonWritten, jsonTree] using result_jsonNumberWritten num
  | boolean flag => cases flag <;> simp only [jsonWritten, jsonTree] <;> rfl
  | lightuserdata pointer => cases pointer <;> simp only [jsonWritten, jsonTree] <;> rfl
  | _ =>
      simp only [jsonWritten, jsonTree]
      rfl

/-- What is written is the compact text of the tree, or comes to the error that keeps the value
from having one. -/
theorem result_jsonWritten (levels currentDepth height : Nat) (value : Value) :
    (jsonWritten host cfg heap levels currentDepth height value).result =
      (jsonTree host cfg heap levels currentDepth height value).map (jsonText cfg) := by
  induction levels generalizing currentDepth height value with
  | zero =>
      by_cases isTable : ∃ addr, value = .table addr
      · obtain ⟨addr, rfl⟩ := isTable
        simp only [jsonWritten, jsonTree]
        exact result_jsonTableWritten (fun _ _ => rfl) addr _
      · exact result_scalar 0 _ _ (not_exists.mp isTable)
  | succ levels inductionHypothesis =>
      by_cases isTable : ∃ addr, value = .table addr
      · obtain ⟨addr, rfl⟩ := isTable
        simp only [jsonWritten, jsonTree]
        exact result_jsonTableWritten (fun _ _ => inductionHypothesis _ _ _) addr _
      · exact result_scalar (levels + 1) _ _ (not_exists.mp isTable)

end Descriptions

section Encoding

variable {host : JsonHost} {json : JsonModule} {heap : Heap} {value : Value}

/-- If the module keeps a buffer, there is one. -/
def JsonModule.Ready (json : JsonModule) : Prop :=
  json.cfg.encodeKeepBuffer = true → ∃ buf text, json.encodeBuf = some buf ∧ buf.Holds text

/-- The numbers are those of a `double`, and what is written is shorter than any memory. -/
structure JsonModule.Writable (host : JsonHost) (json : JsonModule) (heap : Heap) (value : Value) :
    Prop where
  doubles : heap.Doubles
  double : value.IsDouble
  short : (jsonWritten host json.cfg heap json.cfg.encodeMaxDepth 0 1 value).text.length < 2 ^ 64 - 64

/-- What is left in the buffer is returned, and the buffer can be used again. -/
theorem jsonEncodeTo_eq (writable : json.Writable host heap value) {buf : StrBuf}
    (empty : buf.Holds []) : ∃ after text, after.Holds text ∧
      jsonEncodeTo host json.cfg heap value buf =
        ((jsonTree host json.cfg heap json.cfg.encodeMaxDepth 0 1 value).map (jsonText json.cfg),
          after) := by
  have writes : strbufSink.Writes
      (jsonAppendData host json.cfg heap json.cfg.encodeMaxDepth 0 1 value) _ :=
    writes_jsonAppendData writable.doubles _ _ _ writable.double
  obtain ⟨after, run, holds⟩ := writes.run empty writable.short
  refine ⟨after, _, holds, ?_⟩
  rw [← result_jsonWritten, jsonEncodeTo, run, Written.ending, Written.result]
  cases (jsonWritten host json.cfg heap json.cfg.encodeMaxDepth 0 1 value).stop with
  | some stop => rfl
  | none =>
      simp only
      rw [holds.string]

/-- `json_encode` returns the compact text of the tree that its argument describes, or raises the
error that keeps it from having one. Its buffer is never overrun. -/
theorem jsonEncode_eq (ready : json.Ready) (writable : json.Writable host heap value) :
    (jsonEncode host heap json [value]).1 =
      (jsonTree host json.cfg heap json.cfg.encodeMaxDepth 0 1 value).map (jsonText json.cfg) := by
  rw [jsonEncode]
  split
  · rename_i keeps
    obtain ⟨buf, text, kept, holds⟩ := ready keeps
    obtain ⟨after, left, -, run⟩ := jsonEncodeTo_eq writable holds.reset
    rw [kept]
    simp only [run]
  · obtain ⟨buf, made, empty, -⟩ := strbufInit_holds (show 0 + 1 < 2 ^ 64 by decide)
    obtain ⟨after, left, -, run⟩ := jsonEncodeTo_eq writable empty
    rw [made]
    simp only [run]

end Encoding

end ValkeyLuajit
