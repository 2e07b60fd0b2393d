import ValkeyLuajit.Bundled.MsgPackDecode
import ValkeyLuajit.Bundled.MsgPackTree
import ValkeyLuajit.Library.Reader
import ValkeyLuajit.Script.Encoding

/-!
# The MessagePack decoder as a reader

`readItem` reads a tree from the front of the input; it knows no memory, no cursor and no heap.
The decoder does what the reader says on every input: where the reader fails, with its error,
else with a value that shows the tree on fresh tables. So the decoder never leaves the input and
never runs a script.
-/

namespace ValkeyLuajit

open Lua

/-- Read a number of so many bytes. -/
def readNumber (width : Nat) : Reader MpFault Nat := do
  let digits ← Reader.take width
  pure (ofBigEndian digits)

/-- What makes the value of a tree useless as a key. -/
def MpTree.keyFault : MpTree → Option MpFault
  | .nil => some (.stop (.raised (Lua.bytes "table index is nil")))
  | .number .nan => some (.stop (.raised (Lua.bytes "table index is NaN")))
  | _ => none

section

variable (key value : Reader MpFault MpTree)

/-- Read the elements of a list. -/
def readList (room len : Nat) : Reader MpFault MpTree :=
  if room - 1 < 1 then Reader.fail (.stop (stackOverflow "in function mp_decode_to_lua_array"))
  else do
    let elements ← value.repeated len
    pure (.list elements)

/-- Read an entry. -/
def readEntry : Reader MpFault (MpTree × MpTree) := do
  let left ← key
  let right ← value
  match left.keyFault with
  | some fault => Reader.fail fault
  | none => pure (left, right)

/-- Read the entries of a record. -/
def readRecord (len : Nat) : Reader MpFault MpTree := do
  let entries ← (readEntry key value).repeated len
  pure (.record entries)

/-- Read what follows the first byte. -/
def readHead (room : Nat) : MpHead → Reader MpFault MpTree
  | .integer n => pure (.number (toLuaNumber n))
  | .unsigned width => do
      let n ← readNumber width
      pure (.number (toLuaNumber ((n : Int).bmod (2 ^ 64))))
  | .signed width => do
      let n ← readNumber width
      pure (.number (toLuaNumber ((n : Int).bmod (256 ^ width))))
  | .nil => pure .nil
  | .boolean flag => pure (.boolean flag)
  | .float => do
      let f ← readNumber 4
      pure (.number (Interchange.single.datum f).number)
  | .double => do
      let d ← readNumber 8
      pure (.number (Interchange.double.datum d).number)
  | .fixRaw l => do
      let text ← Reader.take l
      pure (.string text)
  | .raw width => do
      let l ← readNumber width
      let text ← Reader.take l
      pure (.string text)
  | .raw32 => do
      let l ← readNumber 4
      let text ← Reader.take l
      pure (.string text)
  | .fixArray l => readList value room l
  | .array width => do
      let l ← readNumber width
      readList value room l
  | .fixMap l => readRecord key value l
  | .map width => do
      let l ← readNumber width
      readRecord key value l
  | .unknown => Reader.fail (.cursor .badfmt)

/-- Read a tree, with what reads a key and what reads an element. -/
def readWith (room : Nat) : Reader MpFault MpTree := do
  let tag ← Reader.byte
  if room < 1 then Reader.fail (.stop (stackOverflow tooManyValues))
  else readHead key value room (mpHead tag)

end

/-- Read a tree. -/
def readItem : (room : Nat) → Reader MpFault MpTree
  | 0 => readWith (fun _ => .short) (fun _ => .short) 0
  | 1 => readWith (readItem 0) (readItem 0) 1
  | room + 2 => readWith (readItem (room + 1)) (readItem room) (room + 2)

mutual

/-- This value shows the tree, and its tables are those from `first` on and below `last`. -/
def Shows (cells : Addr → Table) : MpTree → Addr → Addr → Value → Prop
  | .nil, first, last, value => value = .nil ∧ last = first
  | .boolean flag, first, last, value => value = .boolean flag ∧ last = first
  | .number n, first, last, value => value = .number n ∧ last = first
  | .string text, first, last, value => value = .string text ∧ last = first
  | .list elements, first, last, value => value = .table first ∧
      ∃ values, cells first = .ofFields (arrayFields 1 values) ∧
        ShowsAll cells elements (first + 1) last values
  | .record entries, first, last, value => value = .table first ∧
      ∃ fields, cells first = .ofFields fields ∧ ShowsEntries cells entries (first + 1) last fields

/-- The values show the trees, their tables one after the other. -/
def ShowsAll (cells : Addr → Table) : List MpTree → Addr → Addr → List Value → Prop
  | [], first, last, values => values = [] ∧ last = first
  | element :: rest, first, last, values => ∃ value others mid, values = value :: others ∧
      Shows cells element first mid value ∧ ShowsAll cells rest mid last others

/-- The fields show the entries, the tables of a key before those of its value. -/
def ShowsEntries (cells : Addr → Table) :
    List (MpTree × MpTree) → Addr → Addr → List (Value × Value) → Prop
  | [], first, last, fields => fields = [] ∧ last = first
  | (key, value) :: rest, first, last, fields => ∃ left right others mid after,
      fields = (left, right) :: others ∧ Shows cells key first mid left ∧
      Shows cells value mid after right ∧ ShowsEntries cells rest after last others

end

section Tables

variable {cells others : Addr → Table} {first last : Addr}

/-- A list takes the addresses between its bounds, when its elements do. -/
theorem ShowsAll.le_of {elements : List MpTree}
    (each : ∀ element ∈ elements, ∀ first last value,
      Shows cells element first last value → first ≤ last)
    {values : List Value} (shows : ShowsAll cells elements first last values) : first ≤ last := by
  induction elements generalizing first values with
  | nil => exact shows.2.ge
  | cons element rest inductionHypothesis =>
      obtain ⟨value, others, mid, -, head, tail⟩ := shows
      exact (each element List.mem_cons_self _ _ _ head).trans
        (inductionHypothesis (fun other member => each other (List.mem_cons_of_mem _ member)) tail)

/-- A record takes the addresses between its bounds, when its keys and values do. -/
theorem ShowsEntries.le_of {entries : List (MpTree × MpTree)}
    (each : ∀ entry ∈ entries,
      (∀ first last value, Shows cells entry.1 first last value → first ≤ last) ∧
      ∀ first last value, Shows cells entry.2 first last value → first ≤ last)
    {fields : List (Value × Value)} (shows : ShowsEntries cells entries first last fields) :
    first ≤ last := by
  induction entries generalizing first fields with
  | nil => exact shows.2.ge
  | cons entry rest inductionHypothesis =>
      obtain ⟨left, right, others, mid, after, -, key, value, tail⟩ := shows
      have here := each entry List.mem_cons_self
      exact (here.1 _ _ _ key).trans ((here.2 _ _ _ value).trans
        (inductionHypothesis (fun other member => each other (List.mem_cons_of_mem _ member)) tail))

/-- A tree takes the addresses between its bounds. -/
theorem Shows.le {tree : MpTree} {value : Value} (shows : Shows cells tree first last value) :
    first ≤ last := by
  induction tree generalizing first last value with
  | list elements each =>
      obtain ⟨-, values, -, all⟩ := shows
      exact (Nat.le_add_right first 1).trans
        (all.le_of fun element member _ _ _ => each element member)
  | record entries each =>
      obtain ⟨-, fields, -, all⟩ := shows
      exact (Nat.le_add_right first 1).trans (all.le_of fun entry member =>
        ⟨fun _ _ _ => (each entry member).1, fun _ _ _ => (each entry member).2⟩)
  | _ => exact shows.2.ge

/-- Trees take the addresses between their bounds. -/
theorem ShowsAll.le {elements : List MpTree} {values : List Value}
    (shows : ShowsAll cells elements first last values) : first ≤ last :=
  shows.le_of fun _ _ _ _ _ => Shows.le

/-- Entries take the addresses between their bounds. -/
theorem ShowsEntries.le {entries : List (MpTree × MpTree)} {fields : List (Value × Value)}
    (shows : ShowsEntries cells entries first last fields) : first ≤ last :=
  shows.le_of fun _ _ => ⟨fun _ _ _ => Shows.le, fun _ _ _ => Shows.le⟩

/-- Values go on showing a list while the tables in between are the same, when its elements do. -/
theorem ShowsAll.frame_of {elements : List MpTree}
    (each : ∀ element ∈ elements, ∀ first last value, Shows cells element first last value →
      AgreeOn cells others first last → Shows others element first last value)
    {values : List Value} (shows : ShowsAll cells elements first last values)
    (agree : AgreeOn cells others first last) : ShowsAll others elements first last values := by
  induction elements generalizing first values with
  | nil => exact shows
  | cons element rest inductionHypothesis =>
      obtain ⟨value, values, mid, shape, head, tail⟩ := shows
      refine ⟨value, values, mid, shape, ?_, ?_⟩
      · exact each element List.mem_cons_self _ _ _ head (agree.sub (Nat.le_refl _) tail.le)
      · exact inductionHypothesis (fun other member => each other (List.mem_cons_of_mem _ member))
          tail (agree.sub head.le (Nat.le_refl _))

/-- So do those of a record, when its keys and values do. -/
theorem ShowsEntries.frame_of {entries : List (MpTree × MpTree)}
    (each : ∀ entry ∈ entries,
      (∀ first last value, Shows cells entry.1 first last value →
        AgreeOn cells others first last → Shows others entry.1 first last value) ∧
      ∀ first last value, Shows cells entry.2 first last value →
        AgreeOn cells others first last → Shows others entry.2 first last value)
    {fields : List (Value × Value)} (shows : ShowsEntries cells entries first last fields)
    (agree : AgreeOn cells others first last) : ShowsEntries others entries first last fields := by
  induction entries generalizing first fields with
  | nil => exact shows
  | cons entry rest inductionHypothesis =>
      obtain ⟨left, right, fields, mid, after, shape, key, value, tail⟩ := shows
      have here := each entry List.mem_cons_self
      refine ⟨left, right, fields, mid, after, shape, ?_, ?_, ?_⟩
      · exact here.1 _ _ _ key (agree.sub (Nat.le_refl _) (value.le.trans tail.le))
      · exact here.2 _ _ _ value (agree.sub key.le tail.le)
      · exact inductionHypothesis (fun other member => each other (List.mem_cons_of_mem _ member))
          tail (agree.sub (key.le.trans value.le) (Nat.le_refl _))

/-- A tree is shown by its own tables only. -/
theorem Shows.frame {tree : MpTree} {value : Value} (shows : Shows cells tree first last value)
    (agree : AgreeOn cells others first last) : Shows others tree first last value := by
  have own := shows.le
  induction tree generalizing first last value with
  | list elements each =>
      obtain ⟨same, values, table, all⟩ := shows
      refine ⟨same, values, ?_, ?_⟩
      · rw [agree first (Nat.le_refl _) all.le, table]
      · exact all.frame_of (fun element member _ _ _ inner agrees =>
          each element member inner agrees inner.le)
          (agree.sub (Nat.le_add_right first 1) (Nat.le_refl _))
  | record entries each =>
      obtain ⟨same, fields, table, all⟩ := shows
      refine ⟨same, fields, ?_, ?_⟩
      · rw [agree first (Nat.le_refl _) all.le, table]
      · exact all.frame_of (fun entry member =>
          ⟨fun _ _ _ inner agrees => (each entry member).1 inner agrees inner.le,
            fun _ _ _ inner agrees => (each entry member).2 inner agrees inner.le⟩)
          (agree.sub (Nat.le_add_right first 1) (Nat.le_refl _))
  | _ => exact shows

/-- Whether a value can be a key is read off its tree. -/
theorem Shows.key {tree : MpTree} {value : Value} (shows : Shows cells tree first last value) :
    (tree.keyFault = none ∧ value.storable) ∨ ∃ fault, tree.keyFault = some fault ∧
      value.storable = false ∧ fault = .stop (.raised (bytes
        (if value.isNil then "table index is nil" else "table index is NaN"))) := by
  cases tree with
  | nil =>
      obtain ⟨rfl, -⟩ := shows
      exact .inr ⟨_, rfl, rfl, rfl⟩
  | number n =>
      obtain ⟨rfl, -⟩ := shows
      cases n with
      | nan => exact .inr ⟨_, rfl, rfl, rfl⟩
      | _ => exact .inl ⟨rfl, rfl⟩
  | _ =>
      obtain ⟨rfl, -⟩ := shows
      exact .inl ⟨rfl, rfl⟩

end Tables

end ValkeyLuajit
