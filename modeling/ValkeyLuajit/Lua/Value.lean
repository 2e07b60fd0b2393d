import Mathlib.Data.List.AList
import Mathlib.Data.List.TakeWhile
import Mathlib.Data.Rat.Defs
import Mathlib.Logic.Function.Basic

/-!
# Lua values, tables and the heap

Strings are byte strings. Numbers are exact rationals with the special values of
a double beside them. A table is a finite map with an optional metatable; the
order of its entries is the order `lua_next` visits them in, which Lua leaves open.
-/

namespace ValkeyLuajit.Lua

/-- The bytes of a Lua or C string. -/
abbrev Bytes := List UInt8

/-- The bytes of a string constant of the source. -/
def bytes (text : String) : Bytes := text.toList.map fun char => UInt8.ofNat char.toNat

/-- What C sees of a byte string through a `char *`: the bytes before the first NUL. -/
def cString (text : Bytes) : Bytes := text.takeWhile (· ≠ 0)

/-- A string without NUL is the same to C and to Lua. -/
theorem cString_eq_self_iff {text : Bytes} : cString text = text ↔ (0 : UInt8) ∉ text := by
  rw [cString, List.takeWhile_eq_self_iff]
  constructor
  · intro nonzero present
    simpa using nonzero 0 present
  · intro absent byte present
    simpa using ne_of_mem_of_not_mem present absent

/-- C reads nothing past the NUL it stopped at. -/
@[simp] theorem cString_cString (text : Bytes) : cString (cString text) = cString text := by
  rw [cString_eq_self_iff]
  intro present
  simpa using List.mem_takeWhile_imp present

/-- A Lua number: a finite double as the rational it stands for, or a special value. -/
inductive Number where
  | finite (value : Rat)
  | infinite (negative : Bool)
  | nan
deriving DecidableEq

/-- The address of a table. -/
abbrev Addr := Nat

/-- A function value: the main function of a loaded chunk, a closure a script
created, or a C function under the name it is exposed with. -/
inductive FuncRef where
  | chunk (text : Bytes)
  | closure (id : Nat)
  | native (name : String)
deriving DecidableEq

/-- A Lua value. `hidden` is a table that only the registry refers to. -/
inductive Value where
  | nil
  | boolean (value : Bool)
  | number (value : Number)
  | string (text : Bytes)
  | lightuserdata (pointer : Nat)
  | userdata (id : Nat)
  | thread (id : Nat)
  | function (ref : FuncRef)
  | table (addr : Addr)
  | hidden (name : String)
deriving DecidableEq

/-- The tags `lua_type` returns. -/
inductive LuaType where
  | nil | boolean | lightuserdata | number | string | table | function | userdata | thread
deriving DecidableEq

namespace Value

/-- `lua_type`. -/
def type : Value → LuaType
  | .nil => .nil
  | .boolean _ => .boolean
  | .number _ => .number
  | .string _ => .string
  | .lightuserdata _ => .lightuserdata
  | .userdata _ => .userdata
  | .thread _ => .thread
  | .function _ => .function
  | .table _ => .table
  | .hidden _ => .table

/-- `lua_isnil`. -/
def isNil (value : Value) : Bool := value.type == .nil

/-- `lua_isfunction`. -/
def isFunction (value : Value) : Bool := value.type == .function

/-- `lua_istable`. -/
def isTable (value : Value) : Bool := value.type == .table

/-- `lua_isstring`: numbers are convertible and count. -/
def isString (value : Value) : Bool := value.type == .string || value.type == .number

/-- `lua_isboolean`. -/
def isBoolean (value : Value) : Bool := value.type == .boolean

/-- The value can be the key of an entry. -/
def storable : Value → Bool
  | .nil | .number .nan => false
  | _ => true

@[simp] theorem storable_string (text : Bytes) : (string text).storable = true := by
  simp [storable]

@[simp] theorem storable_finite (value : Rat) : (number (.finite value)).storable = true := by
  simp [storable]

/-- `lua_toboolean`: everything but nil and false is true. -/
def toBoolean : Value → Bool
  | .nil => false
  | .boolean value => value
  | _ => true

end Value

/-- A table. No entry has a nil key or a nil value. -/
structure Table where
  entries : AList (fun _ : Value => Value)
  metatable : Option Addr
  wellFormed : ∀ key value, entries.lookup key = some value → key ≠ .nil ∧ value ≠ .nil

namespace Table

/-- Tables are equal when their entries and metatables are. -/
@[ext] theorem ext {left right : Table} (entries : left.entries = right.entries)
    (metatable : left.metatable = right.metatable) : left = right := by
  cases left
  cases right
  cases entries
  cases metatable
  rfl

/-- The table of `lua_newtable`. -/
def empty : Table := ⟨∅, none, by simp⟩

instance : Inhabited Table := ⟨empty⟩

/-- `lua_rawget`. -/
def rawGet (table : Table) (key : Value) : Value := (table.entries.lookup key).getD .nil

/-- `lua_rawset`: storing nil removes the entry. -/
def rawSet (table : Table) (key value : Value) : Table :=
  if blank : key = .nil ∨ value = .nil then
    { entries := table.entries.erase key
      metatable := table.metatable
      wellFormed := by
        intro other stored found
        by_cases same : other = key
        · subst same
          simp at found
        · rw [AList.lookup_erase_ne same] at found
          exact table.wellFormed _ _ found }
  else
    { entries := table.entries.insert key value
      metatable := table.metatable
      wellFormed := by
        intro other stored found
        by_cases same : other = key
        · subst same
          rw [AList.lookup_insert] at found
          cases found
          exact not_or.mp blank
        · rw [AList.lookup_insert_ne same] at found
          exact table.wellFormed _ _ found }

/-- The table with the given fields, later ones overwriting earlier ones. -/
def ofFields (fields : List (Value × Value)) (metatable : Option Addr := none) : Table :=
  fields.foldl (fun table field => table.rawSet field.1 field.2)
    { empty with metatable := metatable }

@[simp] theorem rawGet_empty (key : Value) : empty.rawGet key = .nil := by
  simp [rawGet, empty]

/-- A raw store is read back under its own key. -/
theorem rawGet_rawSet_self (table : Table) {key : Value} (value : Value) (key_ne : key ≠ .nil) :
    (table.rawSet key value).rawGet key = value := by
  by_cases blank : value = .nil
  · simp [rawSet, rawGet, blank]
  · simp [rawSet, rawGet, blank, key_ne]

/-- A raw store leaves every other key alone. -/
theorem rawGet_rawSet_of_ne (table : Table) {key other : Value} (value : Value)
    (ne : other ≠ key) : (table.rawSet key value).rawGet other = table.rawGet other := by
  unfold rawSet rawGet
  split
  · rw [AList.lookup_erase_ne ne]
  · rw [AList.lookup_insert_ne ne]

/-- A raw store reads back as an updated function. -/
theorem rawGet_rawSet (table : Table) {key : Value} (value other : Value) (key_ne : key ≠ .nil) :
    (table.rawSet key value).rawGet other = if other = key then value else table.rawGet other := by
  split
  · subst other
    exact table.rawGet_rawSet_self value key_ne
  · exact table.rawGet_rawSet_of_ne value ‹_›

@[simp] theorem rawSet_metatable (table : Table) (key value : Value) :
    (table.rawSet key value).metatable = table.metatable := by
  unfold rawSet
  split <;> rfl

end Table

/-- The tables scripts can reach, with the metatables strings and userdata have. -/
structure Heap where
  next : Addr
  cells : Addr → Table
  stringMeta : Option Addr
  userdataMeta : Nat → Option Addr

namespace Heap

instance : Inhabited Heap := ⟨⟨0, fun _ => .empty, none, fun _ => none⟩⟩

/-- Replace the table at an address. -/
def write (heap : Heap) (addr : Addr) (table : Table) : Heap :=
  { heap with cells := Function.update heap.cells addr table }

/-- Place a table at a fresh address. -/
def alloc (heap : Heap) (table : Table) : Heap :=
  { heap.write heap.next table with next := heap.next + 1 }

@[simp] theorem write_self (heap : Heap) (addr : Addr) (table : Table) :
    (heap.write addr table).cells addr = table := Function.update_self ..

theorem write_of_ne (heap : Heap) {addr other : Addr} (table : Table) (ne : other ≠ addr) :
    (heap.write addr table).cells other = heap.cells other := Function.update_of_ne ne ..

@[simp] theorem alloc_self (heap : Heap) (table : Table) :
    (heap.alloc table).cells heap.next = table := Function.update_self ..

theorem alloc_of_ne (heap : Heap) {other : Addr} (table : Table) (ne : other ≠ heap.next) :
    (heap.alloc table).cells other = heap.cells other := Function.update_of_ne ne ..

@[simp] theorem write_next (heap : Heap) (addr : Addr) (table : Table) :
    (heap.write addr table).next = heap.next := rfl

@[simp] theorem alloc_next (heap : Heap) (table : Table) :
    (heap.alloc table).next = heap.next + 1 := rfl

/-- The metatable of a value. -/
def metatableOf (heap : Heap) : Value → Option Addr
  | .table addr => (heap.cells addr).metatable
  | .string _ => heap.stringMeta
  | .userdata id => heap.userdataMeta id
  | _ => none

/-- The raw field `event` of a value's metatable, nil when there is none. -/
def metafield (heap : Heap) (value : Value) (event : String) : Value :=
  match heap.metatableOf value with
  | none => .nil
  | some addr => (heap.cells addr).rawGet (.string (bytes event))

/-- The raw entry of a table value; nothing is stored in other values. -/
def rawIndex (heap : Heap) (object key : Value) : Value :=
  match object with
  | .table addr => (heap.cells addr).rawGet key
  | _ => .nil

end Heap

/-- How an indexing operation that honours metatables resolves. -/
inductive Lookup where
  /-- The value found, with no Lua code run. -/
  | value (value : Value)
  /-- A metamethod is called with the object it was found on. -/
  | call (handler : FuncRef) (object : Value)
  /-- The operation raises an error. -/
  | error (message : Bytes)
deriving DecidableEq

/-- The longest chain of `__index` or `__newindex` handlers LuaJIT follows. -/
def maxIndexChain : Nat := 100

/-- Follow the `__index` chain from `object`, at most `fuel` links of it. -/
def Heap.indexChain (heap : Heap) (key : Value) : Nat → Value → Lookup
  | 0, _ => .error (bytes "'__index' chain too long; possibly a loop")
  | fuel + 1, object =>
      let raw := heap.rawIndex object key
      if raw ≠ .nil then .value raw
      else match heap.metafield object "__index" with
        | .nil => if object.isTable then .value .nil
            else .error (bytes "attempt to index a non-table value")
        | .function handler => .call handler object
        | next => heap.indexChain key fuel next

/-- `lua_gettable` and `lua_getfield` on a value scripts can reach. -/
def Heap.index (heap : Heap) (object key : Value) : Lookup :=
  heap.indexChain key maxIndexChain object

/-- Where a store that honours metatables ends up. -/
inductive Store where
  /-- The table the raw store goes to. -/
  | raw (addr : Addr)
  | call (handler : FuncRef) (object : Value)
  | error (message : Bytes)
deriving DecidableEq

/-- Follow the `__newindex` chain from `object`, at most `fuel` links of it. -/
def Heap.newIndexChain (heap : Heap) (key : Value) : Nat → Value → Store
  | 0, _ => .error (bytes "'__newindex' chain too long; possibly a loop")
  | fuel + 1, object =>
      match object, heap.metafield object "__newindex" with
      | .table addr, handler =>
          if (heap.cells addr).rawGet key ≠ .nil then .raw addr
          else match handler with
            | .nil => .raw addr
            | .function handler => .call handler object
            | next => heap.newIndexChain key fuel next
      | _, .nil => .error (bytes "attempt to index a non-table value")
      | _, .function handler => .call handler object
      | _, next => heap.newIndexChain key fuel next

/-- `lua_settable` and `lua_setfield` on a value scripts can reach. -/
def Heap.newIndex (heap : Heap) (object key : Value) : Store :=
  heap.newIndexChain key maxIndexChain object

/-- A present field is found without consulting a metatable. -/
theorem Heap.index_of_present {heap : Heap} {addr : Addr} {key : Value}
    (present : (heap.cells addr).rawGet key ≠ .nil) :
    heap.index (.table addr) key = .value ((heap.cells addr).rawGet key) := by
  simp [index, maxIndexChain, indexChain, rawIndex, present]

/-- A table without a metatable is read raw. -/
theorem Heap.index_of_no_metatable {heap : Heap} {addr : Addr} (key : Value)
    (bare : (heap.cells addr).metatable = none) :
    heap.index (.table addr) key = .value ((heap.cells addr).rawGet key) := by
  by_cases present : (heap.cells addr).rawGet key = .nil
  · simp [index, maxIndexChain, indexChain, rawIndex, present, metafield, metatableOf, bare,
      Value.isTable, Value.type]
  · exact index_of_present present

/-- A store into a table without a metatable is raw. -/
theorem Heap.newIndex_of_no_metatable {heap : Heap} {addr : Addr} (key : Value)
    (bare : (heap.cells addr).metatable = none) :
    heap.newIndex (.table addr) key = .raw addr := by
  simp [newIndex, maxIndexChain, newIndexChain, metafield, metatableOf, bare]

end ValkeyLuajit.Lua
