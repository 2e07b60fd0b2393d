import ValkeyLuajit.Lua.Effect
import ValkeyLuajit.Script.CallReply

/-!
# How a reply looks in Lua

`Encodes` says which value and which fresh tables stand for a reply. Tables are placed
in the order the conversion makes them, so those of one part of a reply lie between two
addresses and parts never share a table. `callReplyToLuaType_ends` is what is used of the
conversion afterwards: whether it ends is read off the reply, and if it does the value
on the top encodes the reply.
-/

namespace ValkeyLuajit

open Lua

namespace Lua

/-- Store fields one after the other. -/
def Table.store (table : Table) (fields : List (Value × Value)) : Table :=
  fields.foldl (fun table field => table.rawSet field.1 field.2) table

@[simp] theorem Table.store_nil (table : Table) : table.store [] = table := rfl

@[simp] theorem Table.store_cons (table : Table) (field : Value × Value)
    (rest : List (Value × Value)) :
    table.store (field :: rest) = (table.rawSet field.1 field.2).store rest := rfl

/-- Fields stored in an empty table are its fields. -/
theorem Table.empty_store (fields : List (Value × Value)) :
    Table.empty.store fields = Table.ofFields fields := rfl

@[simp] theorem Table.empty_metatable : Table.empty.metatable = none := by simp [empty]

@[simp] theorem Table.store_metatable (table : Table) (fields : List (Value × Value)) :
    (table.store fields).metatable = table.metatable := by
  induction fields generalizing table with
  | nil => rfl
  | cons field rest inductionHypothesis => simp [inductionHypothesis]

/-- A store under other keys leaves a key alone. -/
theorem Table.rawGet_store_of_notMem {fields : List (Value × Value)} {key : Value} (table : Table)
    (absent : key ∉ fields.map Prod.fst) : (table.store fields).rawGet key = table.rawGet key := by
  induction fields generalizing table with
  | nil => rfl
  | cons field rest inductionHypothesis =>
      simp only [List.map_cons, List.mem_cons, not_or] at absent
      rw [Table.store_cons, inductionHypothesis _ absent.2, Table.rawGet_rawSet_of_ne _ _ absent.1]

/-- A table has no other fields than these. -/
theorem Table.rawGet_ofFields_of_notMem {fields : List (Value × Value)} {key : Value}
    (absent : key ∉ fields.map Prod.fst) : (Table.ofFields fields).rawGet key = .nil := by
  rw [← Table.empty_store, Table.rawGet_store_of_notMem _ absent, Table.rawGet_empty]

/-- From one heap to a later one, only the table at `touched` changed. -/
structure Heap.Extends (touched : Option Addr) (old new : Heap) : Prop where
  next : old.next ≤ new.next
  cells : ∀ addr < old.next, touched ≠ some addr → new.cells addr = old.cells addr
  stringMeta : new.stringMeta = old.stringMeta
  userdataMeta : new.userdataMeta = old.userdataMeta

namespace Heap.Extends

variable {touched : Option Addr} {old mid new : Heap}

/-- Nothing changed. -/
theorem refl (heap : Heap) : heap.Extends touched heap := ⟨Nat.le_refl _, fun _ _ _ => rfl, rfl, rfl⟩

/-- One change after the other. -/
theorem trans (first : old.Extends touched mid) (second : mid.Extends touched new) :
    old.Extends touched new where
  next := first.next.trans second.next
  cells := by
    intro addr below untouched
    rw [second.cells addr (below.trans_le first.next) untouched, first.cells addr below untouched]
  stringMeta := second.stringMeta.trans first.stringMeta
  userdataMeta := second.userdataMeta.trans first.userdataMeta

/-- Writing to a table that is new is no change to the old ones. -/
theorem write {addr : Addr} {table : Table} (new : old.next ≤ addr) (later : old.Extends none mid) :
    old.Extends none (mid.write addr table) where
  next := later.next
  cells := by
    intro other below untouched
    rw [Heap.write_of_ne _ _ (Nat.ne_of_lt (below.trans_le new))]
    exact later.cells other below untouched
  stringMeta := later.stringMeta
  userdataMeta := later.userdataMeta

/-- A table that changed was none of the old ones. -/
theorem trans_new {addr : Addr} (first : old.Extends none mid) (second : mid.Extends (some addr) new)
    (fresh : old.next ≤ addr) : old.Extends none new where
  next := first.next.trans second.next
  cells := by
    intro other below untouched
    have apart : addr ≠ other := (Nat.ne_of_lt (below.trans_le fresh)).symm
    rw [second.cells other (below.trans_le first.next) (by simpa using apart),
      first.cells other below untouched]
  stringMeta := second.stringMeta.trans first.stringMeta
  userdataMeta := second.userdataMeta.trans first.userdataMeta

/-- A new table changes none that was there. -/
theorem alloc (table : Table) (later : old.Extends touched mid) :
    old.Extends touched (mid.alloc table) where
  next := later.next.trans (Nat.le_succ _)
  cells := by
    intro other below untouched
    have older := later.next
    rw [Heap.alloc_of_ne _ _ (Nat.ne_of_lt (below.trans_le older))]
    exact later.cells other below untouched
  stringMeta := later.stringMeta
  userdataMeta := later.userdataMeta

/-- Nothing changed but one table. -/
theorem touch (addr : Addr) (table : Table) (later : old.Extends (some addr) mid) :
    old.Extends (some addr) (mid.write addr table) where
  next := later.next
  cells := by
    intro other below untouched
    rw [Heap.write_of_ne _ _ (fun same => untouched (by rw [same]))]
    exact later.cells other below untouched
  stringMeta := later.stringMeta
  userdataMeta := later.userdataMeta

/-- Where nothing changed, nothing but one table did. -/
theorem widen (later : old.Extends none new) : old.Extends touched new where
  next := later.next
  cells := fun addr below _ => later.cells addr below (by simp)
  stringMeta := later.stringMeta
  userdataMeta := later.userdataMeta

end Heap.Extends

end Lua

/-- The fields of an array from index `i` on. -/
def arrayFields (i : Nat) : List Value → List (Value × Value)
  | [] => []
  | value :: rest => (.number (.finite i), value) :: arrayFields (i + 1) rest

/-- The field under a string key. -/
def stringField (name : String) (value : Value) : Value × Value := (.string (bytes name), value)

/-- A text is no index. -/
theorem arrayFields_keys {i : Nat} {values : List Value} {name : Bytes} :
    Value.string name ∉ (arrayFields i values).map Prod.fst := by
  induction values generalizing i with
  | nil => simp [arrayFields]
  | cons value rest inductionHypothesis => simp [arrayFields, inductionHypothesis]

/-- The null of either kind. -/
def CallReply.isNull : CallReply → Bool
  | .null | .arrayNull => true
  | _ => false

/-- The fields of an error table that a command's error becomes. -/
def errorReplyFields (text : Bytes) : List (Value × Value) :=
  [stringField "err" (.string (errorBuffText text)),
    stringField "ignore_error_stats_update" (.boolean true)]

/-- The message is found under `err`. -/
theorem errorReplyFields_err (text : Bytes) :
    (Table.ofFields (errorReplyFields text)).rawGet (.string (bytes "err")) =
      .string (errorBuffText text) := by
  have other : Value.string (bytes "err") ≠ .string (bytes "ignore_error_stats_update") := by decide
  rw [← Table.empty_store, errorReplyFields, Table.store_cons, Table.store_cons, Table.store_nil]
  simp only [stringField]
  rw [Table.rawGet_rawSet_of_ne _ _ other, Table.rawGet_rawSet_self _ _ (by simp)]

mutual

/-- This value stands for the reply, and its tables are those from `first` on and
below `last`. -/
def Encodes (resp : Nat) (cells : Addr → Table) : CallReply → Addr → Addr → Value → Prop
  | .string text, first, last, value => value = .string text ∧ last = first
  | .simpleString text, first, last, value => value = .table first ∧ last = first + 1 ∧
      cells first = .ofFields [stringField "ok" (.string text)]
  | .error text, first, last, value => value = .table first ∧ last = first + 1 ∧
      cells first = .ofFields (errorReplyFields text)
  | .integer number, first, last, value => value = .number (toLuaNumber number) ∧ last = first
  | .null, first, last, value => value = (if resp = 2 then .boolean false else .nil) ∧ last = first
  | .arrayNull, first, last, value =>
      value = (if resp = 2 then .boolean false else .nil) ∧ last = first
  | .array elements, first, last, value => value = .table first ∧
      ∃ values, cells first = .ofFields (arrayFields 1 values) ∧
        EncodesAll resp cells elements (first + 1) last values
  | .map entries, first, last, value => value = .table first ∧
      cells first = .ofFields [stringField "map" (.table (first + 1))] ∧
      ∃ fields, cells (first + 1) = .ofFields fields ∧
        EncodesEntries resp cells entries (first + 2) last fields
  | .set elements, first, last, value => value = .table first ∧
      cells first = .ofFields [stringField "set" (.table (first + 1))] ∧
      ∃ keys : List Value, cells (first + 1) = .ofFields (keys.map fun key => (key, .boolean true)) ∧
        EncodesAll resp cells elements (first + 2) last keys
  | .bool flag, first, last, value => value = .boolean flag ∧ last = first
  | .double number, first, last, value => value = .table first ∧ last = first + 1 ∧
      cells first = .ofFields [stringField "double" (.number number)]
  | .bigNumber number, first, last, value => value = .table first ∧ last = first + 1 ∧
      cells first = .ofFields [stringField "big_number" (.string number.text)]
  | .verbatim text format, first, last, value => value = .table first ∧ last = first + 2 ∧
      cells first = .ofFields [stringField "verbatim_string" (.table (first + 1))] ∧
      cells (first + 1) =
        .ofFields [stringField "string" (.string text), stringField "format" (.string format.text)]
  | .unknown, _, _, _ => False

/-- The values of elements, their tables one after the other. -/
def EncodesAll (resp : Nat) (cells : Addr → Table) :
    List CallReply → Addr → Addr → List Value → Prop
  | [], first, last, values => values = [] ∧ last = first
  | element :: rest, first, last, values => ∃ value others mid, values = value :: others ∧
      Encodes resp cells element first mid value ∧ EncodesAll resp cells rest mid last others

/-- The keys and values of entries, their tables one after the other. -/
def EncodesEntries (resp : Nat) (cells : Addr → Table) :
    List (CallReply × CallReply) → Addr → Addr → List (Value × Value) → Prop
  | [], first, last, fields => fields = [] ∧ last = first
  | (key, value) :: rest, first, last, fields => ∃ keyValue valueValue others mid after,
      fields = (keyValue, valueValue) :: others ∧
      Encodes resp cells key first mid keyValue ∧ Encodes resp cells value mid after valueValue ∧
      EncodesEntries resp cells rest after last others

end

/-- What can stop a conversion. -/
inductive ConversionFault where
  | stackLimit
  | unexpected
  /-- Nil would be the key of an entry. -/
  | nilIndex
deriving DecidableEq

/-- A conversion needs `extra` slots on a stack of this height. -/
def stackFault (extra height : Nat) : Option ConversionFault :=
  if height + extra ≤ maxCStack then none else some .stackLimit

/-- A null becomes false in RESP2 and nil otherwise. -/
def CallReply.nilFault (resp : Nat) (reply : CallReply) : Option ConversionFault :=
  if reply.isNull ∧ resp ≠ 2 then some .nilIndex else none

mutual

/-- What stops the conversion of a reply on a stack of this height. -/
def CallReply.fault (resp : Nat) : CallReply → Nat → Option ConversionFault
  | .string _, height | .integer _, height | .null, height | .arrayNull, height
  | .bool _, height => stackFault 1 height
  | .simpleString _, height | .error _, height | .double _, height
  | .bigNumber _, height => stackFault 3 height
  | .verbatim _ _, height => stackFault 5 height
  | .array elements, height => (stackFault 2 height).or (elementsFault resp elements (height + 2))
  | .map entries, height => (stackFault 3 height).or (entriesFault resp entries (height + 3))
  | .set elements, height => (stackFault 3 height).or (keysFault resp elements (height + 3))
  | .unknown, _ => some .unexpected

/-- What stops the conversion of elements: the first fault of one of them. -/
def elementsFault (resp : Nat) : List CallReply → Nat → Option ConversionFault
  | [], _ => none
  | element :: rest, height => (element.fault resp height).or (elementsFault resp rest height)

/-- What stops the conversion of entries: a fault of a key, of a value, or a key that is nil. -/
def entriesFault (resp : Nat) : List (CallReply × CallReply) → Nat → Option ConversionFault
  | [], _ => none
  | (key, value) :: rest, height => (key.fault resp height).or
      ((value.fault resp (height + 1)).or
        ((key.nilFault resp).or (entriesFault resp rest height)))

/-- What stops the conversion of a set: a fault of an element, or one that is nil. -/
def keysFault (resp : Nat) : List CallReply → Nat → Option ConversionFault
  | [], _ => none
  | element :: rest, height => (element.fault resp height).or
      ((element.nilFault resp).or (keysFault resp rest height))

end

section Encodings

variable {resp : Nat} {cells others : Addr → Table}

theorem EncodesAll.le_of {elements : List CallReply}
    (each : ∀ element ∈ elements, ∀ first last value,
      Encodes resp cells element first last value → first ≤ last) {first last : Addr}
    {values : List Value} (encodes : EncodesAll resp cells elements first last values) :
    first ≤ last := by
  induction elements generalizing first values with
  | nil => exact encodes.2.ge
  | cons element rest inductionHypothesis =>
      obtain ⟨value, others, mid, -, head, tail⟩ := encodes
      have here := each element (by simp) _ _ _ head
      exact here.trans (inductionHypothesis (fun other member => each other (by simp [member])) tail)

theorem EncodesEntries.le_of {entries : List (CallReply × CallReply)}
    (each : ∀ entry ∈ entries,
      (∀ first last value, Encodes resp cells entry.1 first last value → first ≤ last) ∧
      ∀ first last value, Encodes resp cells entry.2 first last value → first ≤ last)
    {first last : Addr} {fields : List (Value × Value)}
    (encodes : EncodesEntries resp cells entries first last fields) : first ≤ last := by
  induction entries generalizing first fields with
  | nil => exact encodes.2.ge
  | cons entry rest inductionHypothesis =>
      obtain ⟨keyValue, valueValue, others, mid, after, -, key, value, tail⟩ := encodes
      have here := each entry (by simp)
      exact (here.1 _ _ _ key).trans ((here.2 _ _ _ value).trans
        (inductionHypothesis (fun other member => each other (by simp [member])) tail))

/-- An encoding takes the addresses between its bounds. -/
theorem Encodes.le {reply : CallReply} {first last : Addr} {value : Value}
    (encodes : Encodes resp cells reply first last value) : first ≤ last := by
  induction reply generalizing first last value with
  | array elements each =>
      obtain ⟨-, values, -, all⟩ := encodes
      exact (Nat.le_add_right first 1).trans
        (all.le_of fun element member _ _ _ => each element member)
  | map entries each =>
      obtain ⟨-, -, fields, -, all⟩ := encodes
      exact (Nat.le_add_right first 2).trans
        (all.le_of fun entry member =>
          ⟨fun _ _ _ => (each entry member).1, fun _ _ _ => (each entry member).2⟩)
  | set elements each =>
      obtain ⟨-, -, keys, -, all⟩ := encodes
      exact (Nat.le_add_right first 2).trans
        (all.le_of fun element member _ _ _ => each element member)
  | unknown => exact encodes.elim
  | string _ | integer _ | null | arrayNull | bool _ => exact encodes.2.ge
  | simpleString _ | error _ | double _ | bigNumber _ =>
      exact (Nat.le_add_right first 1).trans encodes.2.1.ge
  | verbatim _ _ => exact (Nat.le_add_right first 2).trans encodes.2.1.ge

theorem EncodesAll.le {elements : List CallReply} {first last : Addr} {values : List Value}
    (encodes : EncodesAll resp cells elements first last values) : first ≤ last :=
  encodes.le_of fun _ _ _ _ _ => Encodes.le

theorem EncodesEntries.le {entries : List (CallReply × CallReply)} {first last : Addr}
    {fields : List (Value × Value)}
    (encodes : EncodesEntries resp cells entries first last fields) : first ≤ last :=
  encodes.le_of fun _ _ => ⟨fun _ _ _ => Encodes.le, fun _ _ _ => Encodes.le⟩

/-- The two agree on the tables from `first` on and below `last`. -/
def AgreeOn (cells others : Addr → Table) (first last : Addr) : Prop :=
  ∀ addr, first ≤ addr → addr < last → others addr = cells addr

theorem AgreeOn.sub {first last left right : Addr} (agree : AgreeOn cells others first last)
    (above : first ≤ left) (below : right ≤ last) : AgreeOn cells others left right :=
  fun addr low high => agree addr (above.trans low) (high.trans_le below)

theorem EncodesAll.frame_of {elements : List CallReply}
    (each : ∀ element ∈ elements, ∀ first last value, Encodes resp cells element first last value →
      AgreeOn cells others first last → Encodes resp others element first last value)
    {first last : Addr} {values : List Value}
    (encodes : EncodesAll resp cells elements first last values)
    (agree : AgreeOn cells others first last) :
    EncodesAll resp others elements first last values := by
  induction elements generalizing first values with
  | nil => exact encodes
  | cons element rest inductionHypothesis =>
      obtain ⟨value, values, mid, shape, head, tail⟩ := encodes
      refine ⟨value, values, mid, shape, ?_, ?_⟩
      · exact each element (by simp) _ _ _ head (agree.sub (Nat.le_refl _) tail.le)
      · exact inductionHypothesis (fun other member => each other (by simp [member])) tail
          (agree.sub head.le (Nat.le_refl _))

theorem EncodesEntries.frame_of {entries : List (CallReply × CallReply)}
    (each : ∀ entry ∈ entries,
      (∀ first last value, Encodes resp cells entry.1 first last value →
        AgreeOn cells others first last → Encodes resp others entry.1 first last value) ∧
      ∀ first last value, Encodes resp cells entry.2 first last value →
        AgreeOn cells others first last → Encodes resp others entry.2 first last value)
    {first last : Addr} {fields : List (Value × Value)}
    (encodes : EncodesEntries resp cells entries first last fields)
    (agree : AgreeOn cells others first last) :
    EncodesEntries resp others entries first last fields := by
  induction entries generalizing first fields with
  | nil => exact encodes
  | cons entry rest inductionHypothesis =>
      obtain ⟨keyValue, valueValue, fields, mid, after, shape, key, value, tail⟩ := encodes
      have here := each entry (by simp)
      refine ⟨keyValue, valueValue, fields, mid, after, shape, ?_, ?_, ?_⟩
      · exact here.1 _ _ _ key (agree.sub (Nat.le_refl _) (value.le.trans tail.le))
      · exact here.2 _ _ _ value (agree.sub key.le tail.le)
      · exact inductionHypothesis (fun other member => each other (by simp [member])) tail
          (agree.sub (key.le.trans value.le) (Nat.le_refl _))

/-- An encoding looks at its own tables only. -/
theorem Encodes.frame {reply : CallReply} {first last : Addr} {value : Value}
    (encodes : Encodes resp cells reply first last value)
    (agree : AgreeOn cells others first last) : Encodes resp others reply first last value := by
  have own := encodes.le
  induction reply generalizing first last value with
  | array elements each =>
      obtain ⟨same, values, table, all⟩ := encodes
      refine ⟨same, values, ?_, ?_⟩
      · rw [agree first (Nat.le_refl _) all.le, table]
      · exact all.frame_of (fun element member _ _ _ inner agrees =>
          each element member inner agrees inner.le) (agree.sub (Nat.le_add_right first 1) (Nat.le_refl _))
  | map entries each =>
      obtain ⟨same, outer, fields, table, all⟩ := encodes
      have inside : first + 1 < last := all.le
      refine ⟨same, ?_, fields, ?_, ?_⟩
      · rw [agree first (Nat.le_refl _) ((Nat.le_succ _).trans_lt inside), outer]
      · rw [agree (first + 1) (Nat.le_add_right first 1) inside, table]
      · exact all.frame_of (fun entry member =>
          ⟨fun _ _ _ inner agrees => (each entry member).1 inner agrees inner.le,
            fun _ _ _ inner agrees => (each entry member).2 inner agrees inner.le⟩)
          (agree.sub (Nat.le_add_right first 2) (Nat.le_refl _))
  | set elements each =>
      obtain ⟨same, outer, keys, table, all⟩ := encodes
      have inside : first + 1 < last := all.le
      refine ⟨same, ?_, keys, ?_, ?_⟩
      · rw [agree first (Nat.le_refl _) ((Nat.le_succ _).trans_lt inside), outer]
      · rw [agree (first + 1) (Nat.le_add_right first 1) inside, table]
      · exact all.frame_of (fun element member _ _ _ inner agrees =>
          each element member inner agrees inner.le) (agree.sub (Nat.le_add_right first 2) (Nat.le_refl _))
  | unknown => exact encodes.elim
  | string _ | integer _ | null | arrayNull | bool _ => exact encodes
  | simpleString _ | error _ | double _ | bigNumber _ =>
      obtain ⟨same, bound, table⟩ := encodes
      refine ⟨same, bound, ?_⟩
      rw [agree first (Nat.le_refl _) bound.ge, table]
  | verbatim _ _ =>
      obtain ⟨same, bound, outer, inner⟩ := encodes
      have inside : first + 1 < last := bound.ge
      refine ⟨same, bound, ?_, ?_⟩
      · rw [agree first (Nat.le_refl _) ((Nat.le_succ _).trans_lt inside), outer]
      · rw [agree (first + 1) (Nat.le_add_right first 1) inside, inner]

theorem EncodesAll.frame {elements : List CallReply} {first last : Addr} {values : List Value}
    (encodes : EncodesAll resp cells elements first last values)
    (agree : AgreeOn cells others first last) :
    EncodesAll resp others elements first last values :=
  encodes.frame_of (fun _ _ _ _ _ => Encodes.frame) agree

theorem EncodesEntries.frame {entries : List (CallReply × CallReply)} {first last : Addr}
    {fields : List (Value × Value)}
    (encodes : EncodesEntries resp cells entries first last fields)
    (agree : AgreeOn cells others first last) :
    EncodesEntries resp others entries first last fields :=
  encodes.frame_of (fun _ _ => ⟨fun _ _ _ => Encodes.frame, fun _ _ _ => Encodes.frame⟩) agree

/-- A long long becomes a number that is no NaN. -/
theorem toLuaNumber_finite (number : Int) : ∃ value, toLuaNumber number = .finite value := by
  unfold toLuaNumber
  dsimp only
  split
  · exact ⟨_, rfl⟩
  · exact ⟨_, rfl⟩

/-- A value can be the key of an entry, or is nil, as the fault says. -/
def KeyFault (fault : Option ConversionFault) (key : Value) : Prop :=
  fault = none ∧ key.storable = true ∨ fault = some .nilIndex ∧ key = .nil

/-- The value of a reply can be a key unless a null became nil. -/
theorem Encodes.keyFault {reply : CallReply} {first last : Addr} {value : Value}
    (encodes : Encodes resp cells reply first last value) :
    KeyFault (reply.nilFault resp) value := by
  cases reply with
  | unknown => exact encodes.elim
  | null | arrayNull =>
      obtain ⟨rfl, -⟩ := encodes
      by_cases old : resp = 2
      · exact .inl (by simp [old, CallReply.nilFault, Value.storable])
      · exact .inr (by simp [old, CallReply.nilFault, CallReply.isNull])
  | integer number =>
      obtain ⟨rfl, -⟩ := encodes
      obtain ⟨value, finite⟩ := toLuaNumber_finite number
      exact .inl (by simp [finite, CallReply.nilFault, CallReply.isNull])
  | _ =>
      obtain ⟨rfl, -⟩ := encodes
      exact .inl (by simp [CallReply.nilFault, CallReply.isNull, Value.storable])

end Encodings

section Conversion

variable {σ : Type} {rt : Runtime} {resp : Nat}

/-- Between the two worlds only the heap changed, apart from the slots. -/
def Alters (start final : World σ) : Prop :=
  ∃ heap, final.core = start.core.map fun lua => { lua with heap := heap }

/-- Nothing changed. -/
theorem Alters.refl (world : World σ) : Alters world world := ⟨world.lua.heap, rfl⟩

/-- One change of the heap after the other. -/
theorem Alters.trans {first second third : World σ} (before : Alters first second)
    (after : Alters second third) : Alters first third := by
  obtain ⟨_, before⟩ := before
  obtain ⟨heap, after⟩ := after
  exact ⟨heap, by rw [after, before]; rfl⟩

/-- An operation ends as the fault says: with `fits`, with an error, or not at all. -/
def EndsBy (fault : Option ConversionFault) (outcome : Outcome σ Unit) (start : World σ)
    (fits : World σ → Prop) : Prop :=
  match fault with
  | none => ∃ final, outcome = .done () final ∧ Alters start final ∧ fits final
  | some .nilIndex => ∃ final,
      outcome = .raised (.string (bytes "table index is nil")) final ∧ Alters start final
  | some .stackLimit => ∃ final, outcome = .aborted stackLimitPanic final
  | some .unexpected => ∃ final, outcome = .aborted "0" final

namespace EndsBy

variable {fault later : Option ConversionFault} {start : World σ} {fits mid : World σ → Prop}

/-- The fault of a sequence is that of its first part that has one. -/
theorem bind {first : LuaM σ Unit} {next : Unit → LuaM σ Unit}
    (before : EndsBy fault (first start) start mid)
    (after : ∀ world, mid world → EndsBy later (next () world) world fits) :
    EndsBy (fault.or later) ((first >>= next) start) start fits := by
  match fault with
  | none =>
      obtain ⟨world, run, altered, here⟩ := before
      rw [LuaM.bind_apply, run, Outcome.andThen_done, Option.none_or]
      have rest := after world here
      match later with
      | none =>
          obtain ⟨final, rest, changed, there⟩ := rest
          exact ⟨final, rest, altered.trans changed, there⟩
      | some .nilIndex =>
          obtain ⟨final, rest, changed⟩ := rest
          exact ⟨final, rest, altered.trans changed⟩
      | some .stackLimit => exact rest
      | some .unexpected => exact rest
  | some .nilIndex =>
      obtain ⟨final, run, changed⟩ := before
      exact ⟨final, by rw [LuaM.bind_apply, run]; rfl, changed⟩
  | some .stackLimit =>
      obtain ⟨final, run⟩ := before
      exact ⟨final, by rw [LuaM.bind_apply, run]; rfl⟩
  | some .unexpected =>
      obtain ⟨final, run⟩ := before
      exact ⟨final, by rw [LuaM.bind_apply, run]; rfl⟩

/-- What follows has no fault of its own. -/
theorem bind_done {first : LuaM σ Unit} {next : Unit → LuaM σ Unit}
    (before : EndsBy fault (first start) start mid)
    (after : ∀ world, mid world →
      ∃ final, next () world = .done () final ∧ Alters world final ∧ fits final) :
    EndsBy fault ((first >>= next) start) start fits := by
  rw [← @Option.or_none _ fault]
  have last : ∀ world, mid world → EndsBy none (next () world) world fits := after
  exact before.bind last

/-- What comes first has no fault. -/
theorem of_done {first : LuaM σ Unit} {next : Unit → LuaM σ Unit} {world : World σ}
    (run : first start = .done () world) (altered : Alters start world)
    (after : EndsBy fault (next () world) world fits) :
    EndsBy fault ((first >>= next) start) start fits := by
  have before : EndsBy none (first start) start (· = world) := ⟨world, run, altered, rfl⟩
  exact before.bind fun other same => same ▸ after

end EndsBy

/-- Less may be said of the end. -/
theorem EndsBy.imp {fault : Option ConversionFault} {outcome : Outcome σ Unit} {start : World σ}
    {fits others : World σ → Prop} (ends : EndsBy fault outcome start fits)
    (weaker : ∀ final, fits final → others final) : EndsBy fault outcome start others := by
  match fault with
  | none =>
      obtain ⟨final, run, altered, here⟩ := ends
      exact ⟨final, run, altered, weaker final here⟩
  | some .nilIndex => exact ends
  | some .stackLimit => exact ends
  | some .unexpected => exact ends

variable (frame base : List Value) (breached : Bool) (lua : State) (host : σ)
  (calls : List (FuncRef × State))

/-- Room on the stack is the only question. -/
theorem requireStack_ends (extra : Nat) :
    EndsBy (stackFault extra frame.length)
      (requireStack extra ⟨frame, base, breached, lua, host, calls⟩)
      ⟨frame, base, breached, lua, host, calls⟩ (· = ⟨frame, base, breached, lua, host, calls⟩) := by
  by_cases room : frame.length + extra ≤ maxCStack
  · rw [stackFault, if_pos room]
    refine ⟨_, ?_, .refl _, rfl⟩
    simp [requireStack, luaCheckStack, room]
  · rw [stackFault, if_neg room]
    refine ⟨⟨frame, base, breached, lua, host, calls⟩, ?_⟩
    simp [requireStack, luaCheckStack, room, serverPanic]

/-- Storing into a table without a metatable. -/
theorem luaSetTable_bare {addr : Addr} {key value : Value}
    (bare : (lua.heap.cells addr).metatable = none) :
    luaSetTable rt (-3) ⟨value :: key :: .table addr :: frame, base, breached, lua, host, calls⟩ =
      storeEntry key
        ⟨.table addr :: frame, base, breached,
          { lua with heap := lua.heap.write addr ((lua.heap.cells addr).rawSet key value) },
          host, calls⟩
        ⟨.table addr :: frame, base, breached, lua, host, calls⟩ := by
  simp [luaSetTable, luaAssign, Heap.newIndex_of_no_metatable _ bare]

/-- A table with one field. -/
theorem pushFieldTable_apply (field : String) (content : Value) :
    pushFieldTable rt field content ⟨frame, base, breached, lua, host, calls⟩ =
      .done () ⟨.table lua.heap.next :: frame, base, breached,
        { lua with heap :=
            (lua.heap.alloc .empty).write lua.heap.next (.ofFields [stringField field content]) },
        host, calls⟩ := by
  simp [pushFieldTable, luaNewTable, luaSetTable_bare, stringField, ← Table.empty_store]

/-- The table at `addr` got these fields; other tables are as they were. -/
structure Fill (addr : Addr) (fields : List (Value × Value)) (old new : Heap) : Prop where
  later : old.Extends (some addr) new
  table : new.cells addr = (old.cells addr).store fields

/-- No field changes nothing. -/
theorem Fill.nil (addr : Addr) (heap : Heap) : Fill addr [] heap heap := ⟨.refl heap, rfl⟩

/-- One more field in front, whose tables stay as they are. -/
theorem Fill.cons {addr : Addr} {key value : Value} {fields : List (Value × Value)}
    {old mid new : Heap} (part : old.Extends none mid) (present : addr < old.next)
    (rest : Fill addr fields (mid.write addr ((mid.cells addr).rawSet key value)) new) :
    Fill addr ((key, value) :: fields) old new ∧
      AgreeOn mid.cells new.cells old.next mid.next where
  left := by
    constructor
    · exact ((part.widen).touch addr _).trans rest.later
    · rw [rest.table, Heap.write_self, part.cells addr present (by simp)]
      rfl
  right := by
    intro other above below
    have apart : other ≠ addr := (Nat.ne_of_lt (present.trans_le above)).symm
    rw [rest.later.cells other below (by simpa using apart.symm), Heap.write_of_ne _ _ apart]

/-- The value on the top encodes the reply; nothing else is different. -/
def Pushes (resp : Nat) (reply : CallReply) (start final : World σ) : Prop :=
  ∃ value heap, final = (start.setHeap heap).push value ∧ start.lua.heap.Extends none heap ∧
    Encodes resp heap.cells reply start.lua.heap.next heap.next value

/-- Converting this reply ends as its fault says. -/
def Converts (σ : Type) (rt : Runtime) (resp : Nat) (reply : CallReply) : Prop :=
  ∀ start : World σ, EndsBy (reply.fault resp start.frame.length)
    (callReplyToLuaType rt resp reply start) start (Pushes resp reply start)

/-- A loop filled the table at `addr`. -/
def Fills (addr : Addr)
    (encodes : (Addr → Table) → Addr → Addr → List (Value × Value) → Prop)
    (start final : World σ) : Prop :=
  ∃ fields heap, final = start.setHeap heap ∧ Fill addr fields start.lua.heap heap ∧
    encodes heap.cells start.lua.heap.next heap.next fields

/-- A loop stores an entry and goes on, unless the key is nil. -/
theorem store_ends {addr : Addr} {key value : Value} {keyFault fault : Option ConversionFault}
    {loop : LuaM σ Unit} {fits : World σ → Prop} (isKey : KeyFault keyFault key)
    (bare : (lua.heap.cells addr).metatable = none)
    (rest : key.storable = true →
      EndsBy fault
        (loop ⟨.table addr :: frame, base, breached,
          { lua with heap := lua.heap.write addr ((lua.heap.cells addr).rawSet key value) },
          host, calls⟩)
        ⟨.table addr :: frame, base, breached,
          { lua with heap := lua.heap.write addr ((lua.heap.cells addr).rawSet key value) },
          host, calls⟩ fits) :
    EndsBy (keyFault.or fault)
      ((luaSetTable rt (-3) >>= fun _ => loop)
        ⟨value :: key :: .table addr :: frame, base, breached, lua, host, calls⟩)
      ⟨value :: key :: .table addr :: frame, base, breached, lua, host, calls⟩ fits := by
  have stored : luaSetTable rt (-3)
      ⟨value :: key :: .table addr :: frame, base, breached, lua, host, calls⟩ = _ :=
    luaSetTable_bare frame base breached lua host calls bare
  obtain ⟨rfl, storable⟩ | ⟨rfl, rfl⟩ := isKey
  · rw [storeEntry_storable _ storable] at stored
    exact .of_done stored ⟨_, rfl⟩ (rest storable)
  · refine ⟨⟨.table addr :: frame, base, breached, lua, host, calls⟩, ?_, ⟨_, rfl⟩⟩
    rw [LuaM.bind_apply, stored]
    rfl

/-- The loop of an array. -/
theorem arrayElementsToLua_ends {addr : Addr} {elements : List CallReply}
    (each : ∀ element ∈ elements, Converts σ rt resp element) {i : Nat}
    (bare : (lua.heap.cells addr).metatable = none) (present : addr < lua.heap.next) :
    EndsBy (elementsFault resp elements (frame.length + 2))
      (arrayElementsToLua rt resp i elements
        ⟨.table addr :: frame, base, breached, lua, host, calls⟩)
      ⟨.table addr :: frame, base, breached, lua, host, calls⟩
      (Fills addr (fun cells first last fields => ∃ values, fields = arrayFields i values ∧
          EncodesAll resp cells elements first last values)
        ⟨.table addr :: frame, base, breached, lua, host, calls⟩) := by
  induction elements generalizing i lua with
  | nil => exact ⟨_, rfl, .refl _, [], lua.heap, rfl, .nil addr _, [], rfl, rfl, rfl⟩
  | cons element rest inductionHypothesis =>
      have convert := each element (by simp)
        ⟨.number (.finite i) :: .table addr :: frame, base, breached, lua, host, calls⟩
      apply EndsBy.of_done (luaPush_apply _ _) (.refl _)
      apply convert.bind
      rintro - ⟨value, heap, rfl, part, encodes⟩
      have bare' : (heap.cells addr).metatable = none := by
        rw [part.cells addr present (by simp), bare]
      have isKey : KeyFault none (.number (.finite i)) := .inl ⟨rfl, by simp⟩
      apply store_ends _ _ _ _ _ _ isKey bare'
      intro _
      have others := inductionHypothesis
        { lua with heap := heap.write addr ((heap.cells addr).rawSet (.number (.finite i)) value) }
        (fun other member => each other (by simp [member])) (i := i + 1) (by simpa using bare')
        (present.trans_le part.next)
      refine others.imp ?_
      rintro - ⟨fields, new, rfl, fill, values, rfl, encoded⟩
      obtain ⟨filled, agree⟩ := Fill.cons part present fill
      exact ⟨_, new, rfl, filled, value :: values, rfl, value, values, heap.next, rfl,
        encodes.frame agree, encoded⟩

/-- The loop of a set. -/
theorem setElementsToLua_ends {addr : Addr} {elements : List CallReply}
    (each : ∀ element ∈ elements, Converts σ rt resp element)
    (bare : (lua.heap.cells addr).metatable = none) (present : addr < lua.heap.next) :
    EndsBy (keysFault resp elements (frame.length + 1))
      (setElementsToLua rt resp elements
        ⟨.table addr :: frame, base, breached, lua, host, calls⟩)
      ⟨.table addr :: frame, base, breached, lua, host, calls⟩
      (Fills addr (fun cells first last fields => ∃ keys : List Value,
          fields = keys.map (fun key => (key, .boolean true)) ∧
          EncodesAll resp cells elements first last keys)
        ⟨.table addr :: frame, base, breached, lua, host, calls⟩) := by
  induction elements generalizing lua with
  | nil => exact ⟨_, rfl, .refl _, [], lua.heap, rfl, .nil addr _, [], rfl, rfl, rfl⟩
  | cons element rest inductionHypothesis =>
      have convert := each element (by simp) ⟨.table addr :: frame, base, breached, lua, host, calls⟩
      apply convert.bind
      rintro - ⟨key, heap, rfl, part, encodes⟩
      have bare' : (heap.cells addr).metatable = none := by
        rw [part.cells addr present (by simp), bare]
      apply EndsBy.of_done (luaPush_apply _ _) (.refl _)
      apply store_ends _ _ _ _ _ _ encodes.keyFault bare'
      intro _
      have others := inductionHypothesis
        { lua with heap := heap.write addr ((heap.cells addr).rawSet key (.boolean true)) }
        (fun other member => each other (by simp [member])) (by simpa using bare')
        (present.trans_le part.next)
      refine others.imp ?_
      rintro - ⟨fields, new, rfl, fill, keys, rfl, encoded⟩
      obtain ⟨filled, agree⟩ := Fill.cons part present fill
      exact ⟨_, new, rfl, filled, key :: keys, rfl, key, keys, heap.next, rfl,
        encodes.frame agree, encoded⟩

/-- The loop of a map. -/
theorem mapEntriesToLua_ends {addr : Addr} {entries : List (CallReply × CallReply)}
    (each : ∀ entry ∈ entries, Converts σ rt resp entry.1 ∧ Converts σ rt resp entry.2)
    (bare : (lua.heap.cells addr).metatable = none) (present : addr < lua.heap.next) :
    EndsBy (entriesFault resp entries (frame.length + 1))
      (mapEntriesToLua rt resp entries
        ⟨.table addr :: frame, base, breached, lua, host, calls⟩)
      ⟨.table addr :: frame, base, breached, lua, host, calls⟩
      (Fills addr (fun cells first last fields => EncodesEntries resp cells entries first last fields)
        ⟨.table addr :: frame, base, breached, lua, host, calls⟩) := by
  induction entries generalizing lua with
  | nil => exact ⟨_, rfl, .refl _, [], lua.heap, rfl, .nil addr _, rfl, rfl⟩
  | cons entry rest inductionHypothesis =>
      obtain ⟨convertKey, convertValue⟩ := each entry (by simp)
      have first := convertKey ⟨.table addr :: frame, base, breached, lua, host, calls⟩
      apply first.bind
      rintro - ⟨key, early, rfl, partKey, encodesKey⟩
      have second := convertValue
        ⟨key :: .table addr :: frame, base, breached, { lua with heap := early }, host, calls⟩
      apply second.bind
      rintro - ⟨value, heap, rfl, partValue, encodesValue⟩
      have part := partKey.trans partValue
      have bare' : (heap.cells addr).metatable = none := by
        rw [part.cells addr present (by simp), bare]
      apply store_ends _ _ _ _ _ _ encodesKey.keyFault bare'
      intro _
      have others := inductionHypothesis
        { lua with heap := heap.write addr ((heap.cells addr).rawSet key value) }
        (fun other member => each other (by simp [member])) (by simpa using bare')
        (present.trans_le part.next)
      refine others.imp ?_
      rintro - ⟨fields, new, rfl, fill, encoded⟩
      obtain ⟨filled, agree⟩ := Fill.cons part present fill
      have keyStays : AgreeOn early.cells heap.cells lua.heap.next early.next :=
        fun other _ below => partValue.cells other below (by simp)
      exact ⟨_, new, rfl, filled, key, value, fields, early.next, heap.next, rfl,
        (encodesKey.frame keyStays).frame (agree.sub (Nat.le_refl _) encodesValue.le),
        encodesValue.frame (agree.sub encodesKey.le (Nat.le_refl _)), encoded⟩

/-- A leaf of the reply: one question about the stack, then a value. -/
theorem EndsBy.leaf {extra : Nat} {push : LuaM σ Unit} {reply : CallReply} {start : World σ}
    (run : ∃ final, push start = .done () final ∧ Pushes resp reply start final) :
    EndsBy (stackFault extra start.frame.length)
      ((requireStack extra >>= fun _ => push) start) start (Pushes resp reply start) := by
  obtain ⟨frame, base, breached, lua, host, calls⟩ := start
  have room := requireStack_ends frame base breached lua host calls extra
  apply room.bind_done
  rintro - rfl
  obtain ⟨final, ends, value, heap, rfl, pushed⟩ := run
  exact ⟨_, ends, ⟨heap, rfl⟩, value, heap, rfl, pushed⟩

/-- A table with one field stands for a reply. -/
theorem EndsBy.fieldTable {field : String} {content : Value} {reply : CallReply} {start : World σ}
    (encodes : ∀ (cells : Addr → Table) (first : Addr),
      cells first = .ofFields [stringField field content] →
        Encodes resp cells reply first (first + 1) (.table first)) :
    EndsBy (stackFault 3 start.frame.length)
      ((requireStack 3 >>= fun _ => pushFieldTable rt field content) start) start
      (Pushes resp reply start) := by
  apply EndsBy.leaf
  obtain ⟨frame, base, breached, lua, host, calls⟩ := start
  exact ⟨_, pushFieldTable_apply frame base breached lua host calls field content, _, _, rfl,
    .write (Nat.le_refl _) (.alloc _ (.refl _)), encodes _ _ (Heap.write_self ..)⟩

/-- The heap with two more empty tables. -/
def Heap.allocTwo (heap : Heap) : Heap := (heap.alloc .empty).alloc .empty

@[simp] theorem Heap.allocTwo_next (heap : Heap) : (allocTwo heap).next = heap.next + 2 := rfl

/-- Both tables are empty. -/
@[simp] theorem Heap.allocTwo_outer (heap : Heap) : (allocTwo heap).cells heap.next = .empty := by
  rw [allocTwo, Heap.alloc_of_ne _ _ (Nat.ne_of_lt (Nat.lt_succ_self _)), Heap.alloc_self]

@[simp] theorem Heap.allocTwo_inner (heap : Heap) :
    (allocTwo heap).cells (heap.next + 1) = .empty := Heap.alloc_self ..

/-- Two empty tables are allocated at once. -/
theorem Heap.alloc_alloc (heap : Heap) : (heap.alloc .empty).alloc .empty = allocTwo heap := rfl

/-- The tables that were there stay. -/
theorem Heap.allocTwo_extends (heap : Heap) : heap.Extends none (allocTwo heap) :=
  .alloc _ (.alloc _ (.refl _))

/-- The world in which the inner table of a wrapped container is filled. -/
def insideWrapper (field : String) (start : World σ) : World σ :=
  ⟨.table (start.lua.heap.next + 1) :: .string (bytes field) :: .table start.lua.heap.next ::
      start.frame, start.base, start.breached,
    { start.lua with heap := Heap.allocTwo start.lua.heap }, start.host, start.metaCalls⟩

/-- A table that a loop fills, wrapped in a table with one field. -/
theorem EndsBy.wrapped {field : String} {loop : LuaM σ Unit} {fault : Option ConversionFault}
    {reply : CallReply} {encodes : (Addr → Table) → Addr → Addr → List (Value × Value) → Prop}
    {start : World σ}
    (filled : EndsBy fault (loop (insideWrapper field start)) (insideWrapper field start)
      (Fills (start.lua.heap.next + 1) encodes (insideWrapper field start)))
    (shape : ∀ cells others first last fields, AgreeOn cells others (first + 2) last →
      others first = .ofFields [stringField field (.table (first + 1))] →
      others (first + 1) = .ofFields fields → encodes cells (first + 2) last fields →
      Encodes resp others reply first last (.table first)) :
    EndsBy ((stackFault 3 start.frame.length).or fault)
      ((requireStack 3 >>= fun _ => do
        luaNewTable
        luaPushString field
        luaNewTable
        loop
        luaSetTable rt (-3)) start) start (Pushes resp reply start) := by
  obtain ⟨frame, base, breached, lua, host, calls⟩ := start
  have room := requireStack_ends frame base breached lua host calls 3
  apply room.bind
  rintro - rfl
  apply EndsBy.of_done rfl ⟨_, rfl⟩
  apply EndsBy.of_done (luaPushString_apply _ _) (.refl _)
  apply EndsBy.of_done rfl ⟨_, rfl⟩
  apply EndsBy.bind_done filled
  rintro - ⟨fields, heap, rfl, filled, encoded⟩
  have fill : Fill (lua.heap.next + 1) fields (Heap.allocTwo lua.heap) heap := filled
  have below : lua.heap.next < (Heap.allocTwo lua.heap).next := by simp
  have inside : lua.heap.next + 1 < (Heap.allocTwo lua.heap).next := by simp
  have outer : heap.cells lua.heap.next = .empty := by
    rw [fill.later.cells _ below (by simp), Heap.allocTwo_outer]
  have table : heap.cells (lua.heap.next + 1) = .ofFields fields := by
    rw [fill.table, Heap.allocTwo_inner, Table.empty_store]
  let wrapper := Table.ofFields [stringField field (.table (lua.heap.next + 1))]
  refine ⟨⟨.table lua.heap.next :: frame, base, breached,
    { lua with heap := heap.write lua.heap.next wrapper }, host, calls⟩, ?_, ⟨_, rfl⟩,
    .table lua.heap.next, _, rfl, ?_, ?_⟩
  · simp [insideWrapper, luaSetTable_bare, outer, wrapper, stringField, ← Table.empty_store]
  · exact .write (Nat.le_refl _) ((Heap.allocTwo_extends _).trans_new fill.later (Nat.le_succ _))
  · refine shape heap.cells _ _ _ fields ?_ (Heap.write_self ..) ?_ encoded
    · intro addr above _
      exact Heap.write_of_ne _ _ (Nat.ne_of_gt ((Nat.lt_add_of_pos_right Nat.two_pos).trans_le above))
    · rw [Heap.write_of_ne _ _ (Nat.succ_ne_self _), table]

/-- Any answer is converted, or stopped by its fault. -/
theorem callReplyToLuaType_ends (reply : CallReply) : Converts σ rt resp reply := by
  induction reply with
  | string text =>
      intro start
      exact .leaf ⟨_, rfl, .string text, start.lua.heap, rfl, .refl _, rfl, rfl⟩
  | integer number =>
      intro start
      exact .leaf ⟨_, rfl, .number (toLuaNumber number), start.lua.heap, rfl, .refl _, rfl, rfl⟩
  | bool flag =>
      intro start
      exact .leaf ⟨_, rfl, .boolean flag, start.lua.heap, rfl, .refl _, rfl, rfl⟩
  | null | arrayNull =>
      intro start
      exact .leaf ⟨_, rfl, _, start.lua.heap, rfl, .refl _, rfl, rfl⟩
  | simpleString text =>
      intro start
      exact .fieldTable fun cells first table => ⟨rfl, rfl, table⟩
  | double number =>
      intro start
      exact .fieldTable fun cells first table => ⟨rfl, rfl, table⟩
  | bigNumber number =>
      intro start
      exact .fieldTable fun cells first table => ⟨rfl, rfl, table⟩
  | error text =>
      rintro ⟨frame, base, breached, lua, host, calls⟩
      apply EndsBy.leaf
      refine ⟨_, ?_, .table lua.heap.next,
        (lua.heap.alloc .empty).write lua.heap.next (.ofFields (errorReplyFields text)), rfl,
        .write (Nat.le_refl _) (.alloc _ (.refl _)), rfl, rfl, Heap.write_self ..⟩
      simp [luajitPushErrorBuff_apply, luaSetTable_bare, errorReplyFields, stringField,
        ← Table.empty_store, Heap.write]
  | verbatim text format =>
      rintro ⟨frame, base, breached, lua, host, calls⟩
      apply EndsBy.leaf
      refine ⟨_, ?_, .table lua.heap.next,
        (((lua.heap.alloc .empty).alloc .empty).write (lua.heap.next + 1)
          (.ofFields [stringField "string" (.string text),
            stringField "format" (.string format.text)])).write lua.heap.next
          (.ofFields [stringField "verbatim_string" (.table (lua.heap.next + 1))]), rfl,
        .write (Nat.le_refl _) (.write (Nat.le_succ _) (.alloc _ (.alloc _ (.refl _)))), rfl, rfl,
        Heap.write_self .., ?_⟩
      · simp [luaNewTable, luaSetTable_bare, stringField, ← Table.empty_store, Heap.alloc_alloc,
          Heap.write]
      · rw [Heap.write_of_ne _ _ (Nat.succ_ne_self _), Heap.write_self]
  | array elements each =>
      rintro ⟨frame, base, breached, lua, host, calls⟩
      have room := requireStack_ends frame base breached lua host calls 2
      rw [CallReply.fault]
      apply room.bind
      rintro - rfl
      apply EndsBy.of_done rfl ⟨_, rfl⟩
      have filled := arrayElementsToLua_ends frame base breached
        { lua with heap := lua.heap.alloc .empty } host calls each (by simp)
        (Nat.lt_succ_self lua.heap.next) (i := 1)
      refine filled.imp ?_
      rintro - ⟨fields, heap, rfl, fill, values, rfl, encoded⟩
      have later : lua.heap.Extends none heap :=
        (Heap.Extends.alloc .empty (.refl _)).trans_new fill.later (Nat.le_refl _)
      refine ⟨.table lua.heap.next, heap, rfl, later, rfl, values, ?_, encoded⟩
      rw [fill.table, Heap.alloc_self, Table.empty_store]
  | map entries each =>
      intro start
      have height : start.frame.length + 3 = (.string (bytes "map") ::
          .table start.lua.heap.next :: start.frame).length + 1 := rfl
      rw [CallReply.fault, height]
      refine EndsBy.wrapped (mapEntriesToLua_ends _ _ _ _ _ _ each ?_ ?_) ?_
      · rw [Heap.allocTwo_inner, Table.empty_metatable]
      · exact Nat.lt_succ_self _
      · exact fun cells others first last fields agree outer inner encoded =>
          ⟨rfl, outer, fields, inner, encoded.frame agree⟩
  | set elements each =>
      intro start
      have height : start.frame.length + 3 = (.string (bytes "set") ::
          .table start.lua.heap.next :: start.frame).length + 1 := rfl
      rw [CallReply.fault, height]
      refine EndsBy.wrapped (setElementsToLua_ends _ _ _ _ _ _ each ?_ ?_) ?_
      · rw [Heap.allocTwo_inner, Table.empty_metatable]
      · exact Nat.lt_succ_self _
      · rintro cells others first last - agree outer inner ⟨keys, rfl, encoded⟩
        exact ⟨rfl, outer, keys, inner, encoded.frame agree⟩
  | unknown => exact fun start => ⟨start, rfl⟩

end Conversion

end ValkeyLuajit
