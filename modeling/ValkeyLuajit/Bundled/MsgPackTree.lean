import Mathlib.Data.List.Perm.Subperm
import ValkeyLuajit.Bundled.MsgPackEncode

/-!
# What the MessagePack encoder says

A tree is what MessagePack can say about a Lua value. `MpTree.ofValue` reads it off the heap,
down to the limit on nesting, and the encoder appends the bytes of the tree: it runs no script,
and the buffer is never overrun.
-/

namespace ValkeyLuajit

open Lua

/-- What MessagePack can say. -/
inductive MpTree where
  | nil
  | boolean (value : Bool)
  | number (value : Number)
  | string (text : Bytes)
  | list (elements : List MpTree)
  | record (entries : List (MpTree × MpTree))

/-- Induction over a tree: a container has the property when what it contains has. -/
@[induction_eliminator]
theorem MpTree.induction {motive : MpTree → Prop} (nil : motive .nil)
    (boolean : ∀ value, motive (.boolean value)) (number : ∀ value, motive (.number value))
    (string : ∀ text, motive (.string text))
    (list : ∀ elements, (∀ element ∈ elements, motive element) → motive (.list elements))
    (record : ∀ entries, (∀ entry ∈ entries, motive entry.1 ∧ motive entry.2) →
      motive (.record entries)) (tree : MpTree) : motive tree :=
  MpTree.rec (motive_1 := motive)
    (motive_2 := fun elements => ∀ element ∈ elements, motive element)
    (motive_3 := fun entries => ∀ entry ∈ entries, motive entry.1 ∧ motive entry.2)
    (motive_4 := fun entry => motive entry.1 ∧ motive entry.2)
    nil boolean number string list record
    (by simp) (fun _ _ head tail => List.forall_mem_cons.mpr ⟨head, tail⟩)
    (by simp) (fun _ _ head tail => List.forall_mem_cons.mpr ⟨head, tail⟩)
    (fun _ _ key value => ⟨key, value⟩) tree

variable (host : MpHost) (heap : Heap)

/-- The bytes of a number. -/
def mpNumberBytes (n : Number) : Bytes :=
  if isIntTypeEquivalent host n .longLong then mpIntBytes (host.convert ⟨n, .longLong⟩)
  else mpDoubleBytes host.nan n

mutual

/-- The bytes that say it. -/
def MpTree.bytes : MpTree → Bytes
  | .nil => [0xc0]
  | .boolean value => [if value then 0xc3 else 0xc2]
  | .number value => mpNumberBytes host value
  | .string text => mpRawHeader text.length ++ text
  | .list elements => mpCountBytes 0x90 0xdc 0xdd elements.length ++ listBytes elements
  | .record entries => mpCountBytes 0x80 0xde 0xdf entries.length ++ recordBytes entries

def MpTree.listBytes : List MpTree → Bytes
  | [] => []
  | element :: rest => element.bytes ++ listBytes rest

def MpTree.recordBytes : List (MpTree × MpTree) → Bytes
  | [] => []
  | (key, value) :: rest => key.bytes ++ (value.bytes ++ recordBytes rest)

end

/-- The keys `j` and the `n - 1` next ones. -/
def indices (j n : Nat) : List Value :=
  (List.range' j n).map fun i : Nat => .number (.finite i)

/-- The keys of the table are those from 1 to their number, which is an `int`. -/
def Lua.Table.Sequential (table : Table) : Prop :=
  table.entries.keys.Perm (indices 1 table.entries.keys.length) ∧
    table.entries.keys.length < 2 ^ 31

instance (table : Table) : Decidable table.Sequential := inferInstanceAs (Decidable (_ ∧ _))

/-- What can be said about a value, with so many levels of tables. -/
def MpTree.ofValue : (levels : Nat) → Value → MpTree
  | _, .string text => .string text
  | _, .boolean value => .boolean value
  | _, .number n => .number n
  | levels + 1, .table addr =>
      let table := heap.cells addr
      if table.Sequential then
        .list ((indices 1 table.entries.keys.length).map fun key => ofValue levels (table.rawGet key))
      else .record (table.entries.entries.map fun entry =>
        (ofValue levels entry.1, ofValue levels entry.2))
  | _, _ => .nil

section Arrays

variable {host}

/-- On integers the test is whether the type has them. -/
theorem isIntTypeEquivalent_int {n : Number} :
    isIntTypeEquivalent host n .int ↔ ∃ i : Int, n = .finite i ∧ CInteger.int.Holds i := by
  have holds := host.holds ⟨n, .int⟩
  have small : (host.convert ⟨n, .int⟩).natAbs ≤ 2 ^ 53 := by
    obtain ⟨lower, upper⟩ := holds
    simp only [CInteger.bits] at lower upper
    omega
  have exactly : toLuaNumber (host.convert ⟨n, .int⟩) = .finite (host.convert ⟨n, .int⟩) := by
    rw [toLuaNumber]
    exact if_pos small
  constructor
  · intro equivalent
    cases n with
    | finite value =>
        simp only [isIntTypeEquivalent, exactly, Number.datum, Datum.equal, decide_eq_true_eq,
          Datum.finite.injEq] at equivalent
        exact ⟨_, by rw [equivalent], holds⟩
    | infinite negative => cases equivalent
    | nan =>
        simp only [isIntTypeEquivalent, exactly, Number.datum, Datum.equal] at equivalent
        simp at equivalent
  · rintro ⟨i, rfl, fits⟩
    have same : host.convert ⟨.finite i, .int⟩ = i := host.casts _ i (by simp [Number.truncated]) fits
    rw [same] at exactly
    simp [isIntTypeEquivalent, same, exactly, Number.datum, Datum.equal]

theorem mem_indices {j n : Nat} {key : Value} :
    key ∈ indices j n ↔ ∃ i : Nat, j ≤ i ∧ i < j + n ∧ key = .number (.finite i) := by
  simp only [indices, List.mem_map, List.mem_range'_1]
  constructor
  · rintro ⟨i, ⟨lower, upper⟩, rfl⟩
    exact ⟨i, lower, upper, rfl⟩
  · rintro ⟨i, lower, upper, rfl⟩
    exact ⟨i, ⟨lower, upper⟩, rfl⟩

@[simp] theorem length_indices (j n : Nat) : (indices j n).length = n := by simp [indices]

/-- An index of an array is counted, and may be the largest yet. -/
theorem countKeys_index {i count max : Int} (positive : 0 < i) (small : i < 2 ^ 31)
    (rest : List Value) : countKeys host (.number (.finite i) :: rest) count max =
      countKeys host rest (count + 1) (if max < i then i else max) := by
  have fits : CInteger.int.Holds i := ⟨by simp only [CInteger.bits]; omega, small⟩
  have equivalent : isIntTypeEquivalent host (.finite i) .int := isIntTypeEquivalent_int.mpr ⟨i, rfl, fits⟩
  have same : host.convert ⟨.finite i, .int⟩ = i := host.casts _ i (by simp [Number.truncated]) fits
  have above : (0 : Rat) < i := by exact_mod_cast positive
  have refused : (Number.below (.finite i) 0 || Number.finite (i : Rat) == .finite 0 ||
      !isIntTypeEquivalent host (.finite i) .int) = false := by
    simp [Number.below, equivalent, not_lt.mpr above.le, positive.ne']
  rw [countKeys, refused, if_neg Bool.false_ne_true, same]
  simp only [Number.above, Int.cast_lt, decide_eq_true_eq]

/-- Anything else ends the loop. -/
theorem countKeys_other {key : Value} {count max : Int} {rest : List Value}
    (counted : countKeys host (key :: rest) count max = true) :
    ∃ i : Int, key = .number (.finite i) ∧ 0 < i ∧ i < 2 ^ 31 := by
  cases key with
  | number n =>
      rw [countKeys] at counted
      split at counted
      · cases counted
      · rename_i accepted
        simp only [Bool.or_eq_true, not_or, Bool.not_eq_true', Bool.not_eq_false, beq_iff_eq]
          at accepted
        obtain ⟨⟨positive, nonzero⟩, equivalent⟩ := accepted
        obtain ⟨i, rfl, -, upper⟩ := isIntTypeEquivalent_int.mp equivalent
        simp only [Number.below, decide_eq_true_eq, Number.finite.injEq] at positive nonzero
        refine ⟨i, rfl, ?_, upper⟩
        have positive : ¬ i < 0 := by exact_mod_cast positive
        have nonzero : i ≠ 0 := by exact_mod_cast nonzero
        omega
  | _ => cases counted

/-- When the loop answers yes, no index is above the count. -/
theorem bounded_of_countKeys {keys : List Value} {count max : Int}
    (counted : countKeys host keys count max = true) :
    max ≤ count + keys.length ∧ ∀ key ∈ keys, ∃ i : Int, key = .number (.finite i) ∧ 0 < i ∧
      i < 2 ^ 31 ∧ i ≤ count + keys.length := by
  induction keys generalizing count max with
  | nil =>
      have same : max = count := by simpa [countKeys] using counted
      simp [same]
  | cons key rest inductionHypothesis =>
      obtain ⟨i, rfl, positive, small⟩ := countKeys_other counted
      rw [countKeys_index positive small] at counted
      obtain ⟨largest, bounded⟩ := inductionHypothesis counted
      rw [List.length_cons, Nat.cast_succ]
      refine ⟨by split at largest <;> omega, ?_⟩
      rintro key member
      rcases List.mem_cons.mp member with rfl | member
      · exact ⟨i, rfl, positive, small, by split at largest <;> omega⟩
      · obtain ⟨j, rfl, positive, small, below⟩ := bounded key member
        exact ⟨j, rfl, positive, small, by omega⟩

/-- The loop answers yes when the last index is the count. -/
theorem countKeys_of_bounded {keys : List Value} {count max : Int} (largest : max ≤ count + keys.length)
    (bounded : ∀ key ∈ keys, ∃ i : Int, key = .number (.finite i) ∧ 0 < i ∧ i < 2 ^ 31 ∧
      i ≤ count + keys.length)
    (reached : max = count + keys.length ∨
      .number (.finite (count + keys.length : Int)) ∈ keys) :
    countKeys host keys count max = true := by
  induction keys generalizing count max with
  | nil => simpa [countKeys] using reached
  | cons key rest inductionHypothesis =>
      obtain ⟨i, rfl, positive, small, below⟩ := bounded key List.mem_cons_self
      have shift : count + 1 + (rest.length : Int) = count + ((rest.length : Int) + 1) := by ring
      rw [List.length_cons, Nat.cast_succ] at largest reached below
      rw [countKeys_index positive small]
      apply inductionHypothesis
      · rw [shift]
        split <;> assumption
      · intro key member
        obtain ⟨j, rfl, positive, small, below⟩ := bounded key (List.mem_cons_of_mem _ member)
        rw [List.length_cons, Nat.cast_succ] at below
        exact ⟨j, rfl, positive, small, by rw [shift]; exact below⟩
      · rw [shift]
        rcases reached with reached | reached
        · left
          rw [← reached]
          exact if_neg (by omega)
        · rcases List.mem_cons.mp reached with last | later
          · left
            have same : count + ((rest.length : Int) + 1) = i := by
              simp only [Value.number.injEq, Number.finite.injEq, Int.cast_inj] at last
              exact last
            rw [same]
            split <;> omega
          · exact .inr later

theorem nodup_keys (table : Table) : table.entries.keys.Nodup := table.entries.keys_nodup

/-- `table_is_an_array` answers yes for the tables whose keys are the indices from 1 on. -/
theorem tableIsAnArray_eq {table : Table} {height : Nat} (room : height + 2 ≤ maxCStack) :
    tableIsAnArray host height table = .ok (decide table.Sequential) := by
  have check : luaLCheckStack height 2 "in function table_is_an_array" = .ok () := if_pos room
  have whole : countKeys host table.entries.keys 0 0 = true ↔ table.Sequential := by
    constructor
    · intro counted
      obtain ⟨-, bounded⟩ := bounded_of_countKeys counted
      have inside : table.entries.keys ⊆ indices 1 table.entries.keys.length := by
        intro key member
        obtain ⟨i, rfl, positive, -, below⟩ := bounded key member
        obtain ⟨n, rfl⟩ := Int.eq_ofNat_of_zero_le positive.le
        exact mem_indices.mpr ⟨n, by omega, by omega, by simp⟩
      have some := (List.subperm_of_subset (nodup_keys table) inside).perm_of_length_le (by simp)
      refine ⟨some, ?_⟩
      rcases Nat.eq_zero_or_pos table.entries.keys.length with none | several
      · rw [none]
        decide
      · have last := some.mem_iff.mpr (mem_indices.mpr
          ⟨table.entries.keys.length, several, by omega, rfl⟩)
        obtain ⟨i, same, -, small, -⟩ := bounded _ last
        simp only [Value.number.injEq, Number.finite.injEq] at same
        have same : (table.entries.keys.length : Int) = i := by exact_mod_cast same
        omega
    · rintro ⟨same, small⟩
      apply countKeys_of_bounded
      · omega
      · intro key member
        obtain ⟨i, lower, upper, rfl⟩ := mem_indices.mp (same.mem_iff.mp member)
        exact ⟨i, by simp, by omega, by omega, by omega⟩
      · rcases Nat.eq_zero_or_pos table.entries.keys.length with none | several
        · exact .inl (by omega)
        · right
          apply same.mem_iff.mpr
          exact mem_indices.mpr ⟨_, several, by omega, by simp⟩
  rw [tableIsAnArray, check]
  simp only [bind, Except.bind]
  congr 1
  rw [Bool.eq_iff_iff, decide_eq_true_eq]
  exact whole

theorem mem_keys_iff {table : Table} {key : Value} :
    key ∈ table.entries.keys ↔ table.rawGet key ≠ .nil := by
  rw [← AList.mem_keys, ← AList.lookup_isSome, Table.rawGet]
  cases found : table.entries.lookup key with
  | none => simp
  | some value => simpa using (table.wellFormed _ _ found).2

/-- A table of indices has a value under each of them, and under nothing else. -/
theorem sequential_iff {table : Table} : table.Sequential ↔ ∃ n < 2 ^ 31, ∀ key,
    table.rawGet key ≠ .nil ↔ ∃ i : Nat, 1 ≤ i ∧ i ≤ n ∧ key = .number (.finite i) := by
  constructor
  · rintro ⟨same, small⟩
    refine ⟨table.entries.keys.length, small, fun key => ?_⟩
    rw [← mem_keys_iff, same.mem_iff, mem_indices]
    constructor
    · rintro ⟨i, lower, upper, rfl⟩
      exact ⟨i, lower, by omega, rfl⟩
    · rintro ⟨i, lower, upper, rfl⟩
      exact ⟨i, lower, by omega, rfl⟩
  · rintro ⟨n, small, present⟩
    have injective : Function.Injective fun i : Nat => Value.number (.finite i) := by
      intro i j same
      simpa using same
    have distinct : (indices 1 n).Nodup := List.Nodup.map injective (List.nodup_range' ..)
    have same : table.entries.keys.Perm (indices 1 n) := by
      rw [List.perm_ext_iff_of_nodup (nodup_keys table) distinct]
      intro key
      rw [mem_keys_iff, present, mem_indices]
      constructor
      · rintro ⟨i, lower, upper, rfl⟩
        exact ⟨i, lower, by omega, rfl⟩
      · rintro ⟨i, lower, upper, rfl⟩
        exact ⟨i, lower, by omega, rfl⟩
    have length : table.entries.keys.length = n := by rw [same.length_eq, length_indices]
    exact ⟨by rwa [length], by omega⟩

/-- The only border of a table of indices is their number. -/
theorem Lua.Table.Sequential.border {table : Table} (sequential : table.Sequential) {n : Nat}
    (border : Border table n) : n = table.entries.keys.length := by
  obtain ⟨last, next⟩ := border
  have within {i : Nat} (lower : 1 ≤ i) :
      table.rawGet (.number (.finite i)) ≠ .nil ↔ i ≤ table.entries.keys.length := by
    rw [← mem_keys_iff, sequential.1.mem_iff, mem_indices]
    constructor
    · rintro ⟨j, -, upper, same⟩
      simp only [Value.number.injEq, Number.finite.injEq, Nat.cast_inj] at same
      omega
    · exact fun upper => ⟨i, lower, by omega, rfl⟩
  have upper : n ≤ table.entries.keys.length := by
    rcases last with rfl | present
    · exact Nat.zero_le _
    · rcases Nat.eq_zero_or_pos n with rfl | positive
      · exact Nat.zero_le _
      · exact (within positive).mp present
  have lower := (within (Nat.le_add_left 1 n)).not.mp (not_not.mpr next)
  omega

/-- A table ends somewhere. -/
theorem exists_end (table : Table) :
    ∃ n : Nat, table.rawGet (.number (.finite (n + 1 : Nat))) = .nil := by
  by_contra endless
  rw [not_exists] at endless
  have injective : Function.Injective fun i : Nat => Value.number (.finite i) := by
    intro i j same
    simpa using same
  have distinct : (indices 1 (table.entries.keys.length + 1)).Nodup :=
    List.Nodup.map injective (List.nodup_range' ..)
  have inside : indices 1 (table.entries.keys.length + 1) ⊆ table.entries.keys := by
    intro key member
    obtain ⟨i, lower, -, rfl⟩ := mem_indices.mp member
    obtain ⟨i, rfl⟩ := Nat.exists_eq_add_of_le' lower
    exact mem_keys_iff.mpr (endless i)
  have longer := (List.subperm_of_subset distinct inside).length_le
  rw [length_indices] at longer
  omega

/-- The first border, counted from below. -/
def firstBorder (table : Table) : Nat := Nat.find (exists_end table)

theorem border_firstBorder (table : Table) : Border table (firstBorder table) := by
  refine ⟨?_, Nat.find_spec (exists_end table)⟩
  cases found : firstBorder table with
  | zero => exact .inl rfl
  | succ n =>
      have earlier := Nat.find_min (exists_end table) (show n < firstBorder table by omega)
      exact .inr earlier

/-- A cast on a machine that answers with the least value when C leaves it open. -/
def usualCast (cast : Cast) : Int :=
  match cast.number.truncated with
  | some whole => if cast.type.Holds whole then whole else -(2 : Int) ^ cast.type.bits
  | none => -(2 : Int) ^ cast.type.bits

theorem holds_least (type : CInteger) : type.Holds (-(2 : Int) ^ type.bits) := by
  cases type <;> decide

/-- A machine like most. -/
def usualHost : MpHost where
  convert := usualCast
  casts := by
    intro cast whole truncated holds
    rw [usualCast, truncated]
    exact if_pos holds
  holds := by
    intro cast
    unfold usualCast
    split
    · split
      · assumption
      · exact holds_least _
    · exact holds_least _
  nan := ⟨0x7fc00000, 0x7ff8000000000000, by decide, by decide, by decide, by decide⟩
  objlen := firstBorder
  border := border_firstBorder

/-- The array test says what its comment says: the keys are the numbers from 1 up to some N,
without a hole. -/
theorem tableIsAnArray_iff (host : MpHost) (table : Table) {height : Nat}
    (room : height + 2 ≤ maxCStack) : tableIsAnArray host height table = .ok true ↔
      ∃ n < 2 ^ 31, ∀ key, table.rawGet key ≠ .nil ↔
        ∃ i : Nat, 1 ≤ i ∧ i ≤ n ∧ key = .number (.finite i) := by
  rw [tableIsAnArray_eq room, ← sequential_iff, Except.ok.injEq, decide_eq_true_eq]

/-- Three keys, the last one first. -/
def threeKeys : Table := .ofFields
  [(.number (.finite 3), .boolean true), (.number (.finite 1), .boolean true),
    (.number (.finite 2), .boolean false)]

/-- The keys 1 and 3. -/
def holedKeys : Table :=
  .ofFields [(.number (.finite 1), .boolean true), (.number (.finite 3), .boolean true)]

/-- Three keys are an array in any order, and with a hole they are none. -/
theorem tableIsAnArray_iff_keys :
    (∃ n < 2 ^ 31, ∀ key, threeKeys.rawGet key ≠ .nil ↔
      ∃ i : Nat, 1 ≤ i ∧ i ≤ n ∧ key = .number (.finite i)) ∧
    ¬ ∃ n < 2 ^ 31, ∀ key, holedKeys.rawGet key ≠ .nil ↔
      ∃ i : Nat, 1 ≤ i ∧ i ≤ n ∧ key = .number (.finite i) := by
  constructor
  · exact (tableIsAnArray_iff usualHost threeKeys (by decide)).mp
      (show tableIsAnArray usualHost 1 threeKeys = .ok true by decide +kernel)
  · rw [← tableIsAnArray_iff usualHost holedKeys (show 1 + 2 ≤ maxCStack by decide)]
    decide +kernel

end Arrays

section Encoding

variable {host heap} {encode : Nat → Value → MpBuf → Except MpStop MpBuf} {say : Value → MpTree}

theorem luaLCheckStack_ok {height extra : Nat} (message : String) (room : height + extra ≤ maxCStack) :
    luaLCheckStack height extra message = .ok () := if_pos room

/-- The elements of an array are appended one after the other, and all are there. -/
theorem appends_mpEncodeElements (heap : Heap) (addr : Addr) {height : Nat} (rounds j : Nat)
    (each : ∀ value, Appends (encode (height + 1) value) ((say value).bytes host))
    (present : ∀ i, j ≤ i → i < j + rounds →
      (heap.cells addr).rawGet (.number (.finite i)) ≠ .nil) :
    Appends (mpEncodeElements heap encode (.table addr) height rounds j)
      (MpTree.listBytes host
        ((indices j rounds).map fun key => say ((heap.cells addr).rawGet key))) := by
  induction rounds generalizing j with
  | zero => exact appends_nil
  | succ rounds inductionHypothesis =>
      have found := Heap.index_of_present (present j (Nat.le_refl j) (by omega))
      have rest := inductionHypothesis (j + 1) fun i lower upper => present i (by omega) (by omega)
      have both := (each ((heap.cells addr).rawGet (.number (.finite j)))).trans rest
      intro buf text holds short
      obtain ⟨after, run, here⟩ := both buf text holds short
      refine ⟨after, ?_, here⟩
      rw [mpEncodeElements, found]
      exact run

/-- So are the entries of a map. -/
theorem appends_mpEncodeEntries {height : Nat} (entries : List (Sigma fun _ : Value => Value))
    (keys : ∀ value, Appends (encode (height + 3) value) ((say value).bytes host))
    (values : ∀ value, Appends (encode (height + 2) value) ((say value).bytes host)) :
    Appends (mpEncodeEntries encode height entries)
      (MpTree.recordBytes host (entries.map fun entry => (say entry.1, say entry.2))) := by
  induction entries with
  | nil => exact appends_nil
  | cons entry rest inductionHypothesis =>
      exact (keys entry.1).trans ((values entry.2).trans inductionHypothesis)

/-- A number is encoded as an integer if it can be, else as it is. -/
theorem appends_mpEncodeLuaNumber (n : Number) :
    Appends (mpEncodeLuaNumber host n) (mpNumberBytes host n) := by
  intro buf text holds short
  rw [mpEncodeLuaNumber, mpNumberBytes] at *
  split at short
  · rename_i equivalent
    rw [if_pos equivalent, if_pos equivalent]
    exact mpBufAppend_holds holds short
  · rename_i other
    rw [if_neg other, if_neg other]
    exact mpBufAppend_holds holds short

/-- With the room for three slots a level the encoder says the tree of the value: it raises no
error, calls no metamethod and stays within the buffer. -/
theorem appends_mpEncodeLuaType (levels height : Nat) (value : Value)
    (room : height + 3 * levels ≤ maxCStack) :
    Appends (mpEncodeLuaType host heap levels height value)
      ((MpTree.ofValue heap levels value).bytes host) := by
  induction levels generalizing height value with
  | zero =>
      cases value with
      | string text => exact appends_mpEncodeBytes text
      | boolean flag => exact appends_mpBufAppend _
      | number n => exact appends_mpEncodeLuaNumber n
      | _ => exact appends_mpBufAppend [0xc0]
  | succ levels inductionHypothesis =>
      cases value with
      | string text => exact appends_mpEncodeBytes text
      | boolean flag => exact appends_mpBufAppend _
      | number n => exact appends_mpEncodeLuaNumber n
      | table addr =>
          have isArray : tableIsAnArray host height (heap.cells addr) =
              .ok (decide (heap.cells addr).Sequential) := tableIsAnArray_eq (by omega)
          intro buf text holds short
          rw [mpEncodeLuaType, mpEncodeLuaTable, isArray]
          simp only [bind, Except.bind]
          rw [MpTree.ofValue] at *
          by_cases sequential : (heap.cells addr).Sequential
          · have border := sequential.border (host.border (heap.cells addr))
            have elements := (appends_mpBufAppend
              (mpCountBytes 0x90 0xdc 0xdd (heap.cells addr).entries.keys.length)).trans
              (appends_mpEncodeElements heap addr (heap.cells addr).entries.keys.length 1
                (fun value => inductionHypothesis (height + 1) value (by omega))
                fun i lower upper => mem_keys_iff.mp (sequential.1.mem_iff.mpr
                  (mem_indices.mpr ⟨i, lower, upper, rfl⟩)))
            simp only [if_pos sequential, MpTree.bytes, List.length_map, length_indices] at short ⊢
            obtain ⟨after, run, here⟩ := elements buf text holds short
            refine ⟨after, ?_, here⟩
            rw [if_pos (decide_eq_true sequential), mpEncodeLuaTableAsArray, border,
              luaLCheckStack_ok _ (by omega)]
            exact run
          · have entries := (appends_mpBufAppend
              (mpCountBytes 0x80 0xde 0xdf (heap.cells addr).entries.entries.length)).trans
              (appends_mpEncodeEntries (heap.cells addr).entries.entries
                (fun value => inductionHypothesis (height + 3) value (by omega))
                fun value => inductionHypothesis (height + 2) value (by omega))
            simp only [if_neg sequential, MpTree.bytes, List.length_map] at short ⊢
            obtain ⟨after, run, here⟩ := entries buf text holds short
            refine ⟨after, ?_, here⟩
            rw [if_neg (by simpa using sequential), mpEncodeLuaTableAsMap,
              luaLCheckStack_ok _ (by omega)]
            exact run
      | _ => exact appends_mpBufAppend [0xc0]

/-- The bytes of some arguments. -/
def packedBytes (host : MpHost) (heap : Heap) (args : List Value) : List Bytes :=
  args.map fun argument => (MpTree.ofValue heap maxNesting argument).bytes host

theorem mpPackArguments_eq (args : List Value) {height : Nat} {buf : MpBuf}
    (holds : buf.Holds []) (room : height + args.length + 3 * maxNesting ≤ maxCStack)
    (short : ∀ text ∈ packedBytes host heap args, text.length < sizeMax / 2) :
    ∃ after, mpPackArguments host heap height args buf =
      .ok (packedBytes host heap args, after) := by
  induction args generalizing height buf with
  | nil => exact ⟨buf, rfl⟩
  | cons argument rest inductionHypothesis =>
      rw [List.length_cons] at room
      have encoded : Appends (mpEncodeLuaType host heap maxNesting (height + 1) argument)
          ((MpTree.ofValue heap maxNesting argument).bytes host) :=
        appends_mpEncodeLuaType maxNesting (height + 1) argument (by omega)
      obtain ⟨full, run, there⟩ := encoded buf [] holds (by
        rw [List.length_nil, Nat.zero_add]
        exact short _ List.mem_cons_self)
      rw [List.nil_append] at there
      have read : full.b.loadRange 0 full.len =
          some ((MpTree.ofValue heap maxNesting argument).bytes host) := by
        have size := there.size
        have range : full.b.loadRange (0 : Nat) full.len = some ((full.b.drop 0).take full.len) :=
          Block.loadRange_of_le (by omega)
        rw [List.drop_zero, there.bytes] at range
        exact range
      obtain ⟨after, others⟩ := inductionHypothesis there.reuse
        (show height + 1 + rest.length + 3 * maxNesting ≤ maxCStack by omega)
        fun text member => short text (List.mem_cons_of_mem _ member)
      refine ⟨after, ?_⟩
      rw [mpPackArguments, luaLCheckStack_ok _ (by omega)]
      simp only [bind, Except.bind, run, read, others]
      rfl

/-- `pack` returns the bytes of its arguments, one after the other. On any heap, one with cycles
too, it comes to an end, runs no metamethod and keeps within its buffer. -/
theorem mpPack_returns {args : List Value} (some : args ≠ [])
    (room : args.length + args.length + 3 * maxNesting ≤ maxCStack)
    (short : ∀ text ∈ packedBytes host heap args, text.length < sizeMax / 2) :
    mpPack host heap args = .ok (packedBytes host heap args).flatten := by
  obtain ⟨after, run⟩ := mpPackArguments_eq args mpBufNew_holds room short
  rw [mpPack, if_neg some, if_neg (by omega), run]
  rfl

/-- A heap whose only table has itself as its first element. -/
def selfHeap : Heap := (default : Heap).alloc (.ofFields [(.number (.finite 1), .table 0)])

/-- Packing a table that contains itself: a list for each level, and nil below the last. -/
theorem mpPack_self :
    mpPack usualHost selfHeap [.table 0] = .ok (List.replicate 16 0x91 ++ [0xc0]) :=
  (mpPack_returns (by simp) (by decide) (by decide +kernel)).trans (by decide +kernel)

end Encoding

end ValkeyLuajit
