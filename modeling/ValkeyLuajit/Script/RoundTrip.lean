import ValkeyLuajit.Script.Encoding
import ValkeyLuajit.Script.Rendering

/-!
# Replies that come back as they were

A reply that a script hands back unchanged is sent as it was received: the encoding of
each kind is recognised as that kind, and no element is lost, merged or duplicated.
Entries of maps and elements of sets are keys of a table, whose order is Lua's choice.
-/

namespace ValkeyLuajit

open Lua

/-- The token of a reply that contains no others. An error comes back with a note that
the statistics know it already. -/
def CallReply.leafToken : CallReply → Option Token
  | .string text => some (.bulk text)
  | .simpleString text => some (.simple text)
  | .error text => some (.error text false)
  | .integer value => some (.integer value)
  | .null | .arrayNull => some .null
  | .bool value => some (.bool value)
  | .double value => some (.double value)
  | .bigNumber number => some (.bigNumber number.text)
  | .verbatim text format => some (.verbatim text format.text)
  | _ => none

mutual

/-- These tokens are the reply, with the entries of maps and the elements of sets in any
order. -/
inductive Emits : CallReply → List Token → Prop
  | leaf {reply : CallReply} {token : Token} (isToken : reply.leafToken = some token) :
      Emits reply [token]
  | array {elements : List CallReply} {tokens : List Token} (all : EmitsAll elements tokens) :
      Emits (.array elements) (.openArray :: tokens ++ [.closeArray elements.length])
  | map {entries others : List (CallReply × CallReply)} {tokens : List Token}
      (reordered : others.Perm entries) (all : EmitsEntries others tokens) :
      Emits (.map entries) (.openMap :: tokens ++ [.closeMap entries.length])
  | set {elements others : List CallReply} {tokens : List Token}
      (reordered : others.Perm elements) (all : EmitsAll others tokens) :
      Emits (.set elements) (.openSet :: tokens ++ [.closeSet elements.length])

/-- The tokens of elements, in their order. -/
inductive EmitsAll : List CallReply → List Token → Prop
  | nil : EmitsAll [] []
  | cons {element : CallReply} {rest : List CallReply} {tokens others : List Token}
      (head : Emits element tokens) (tail : EmitsAll rest others) :
      EmitsAll (element :: rest) (tokens ++ others)

/-- The tokens of entries, each key before its value. -/
inductive EmitsEntries : List (CallReply × CallReply) → List Token → Prop
  | nil : EmitsEntries [] []
  | cons {key value : CallReply} {rest : List (CallReply × CallReply)}
      {keyTokens valueTokens others : List Token} (first : Emits key keyTokens)
      (second : Emits value valueTokens) (tail : EmitsEntries rest others) :
      EmitsEntries ((key, value) :: rest) (keyTokens ++ valueTokens ++ others)

end

/-- The text has neither line ends nor NUL. -/
def IsLine (text : Bytes) : Prop := ∀ char ∈ text, char ≠ 13 ∧ char ≠ 10 ∧ char ≠ 0

/-- A text an error reply comes with: ended by NUL, not starting with a minus sign, and
without line ends at either side. -/
structure IsErrorText (text : Bytes) : Prop where
  terminated : (0 : UInt8) ∉ text
  noMinus : text.head? ≠ some 45
  leading : ∀ char, text.head? = some char → char ∉ bytes "\r\n"
  trailing : ∀ char, text.getLast? = some char → char ∉ bytes "\r\n"

mutual

/-- The replies that come back: from RESP2 on strings, integers that a double holds,
errors, nulls and arrays; beyond RESP2 also the other kinds, with keys and elements that
differ and no null in a container. -/
def CallReply.Returnable (resp : Nat) : CallReply → Prop
  | .string _ | .null | .arrayNull => True
  | .simpleString text => IsLine text
  | .error text => IsErrorText text
  | .integer value => value.natAbs ≤ 2 ^ 53
  | .array elements => ReturnableAll resp elements
  | .map entries => resp ≠ 2 ∧ (entries.map Prod.fst).Nodup ∧ ReturnableEntries resp entries
  | .set elements => resp ≠ 2 ∧ elements.Nodup ∧ ReturnableAll resp elements
  | .bool _ | .double _ | .bigNumber _ | .verbatim _ _ => resp ≠ 2
  | .unknown => False

/-- Elements that come back; beyond RESP2 none of them is null. -/
def ReturnableAll (resp : Nat) : List CallReply → Prop
  | [] => True
  | element :: rest => element.Returnable resp ∧ (resp ≠ 2 → element.isNull = false) ∧
      ReturnableAll resp rest

/-- Entries that come back; beyond RESP2 no key and no value is null. -/
def ReturnableEntries (resp : Nat) : List (CallReply × CallReply) → Prop
  | [] => True
  | (key, value) :: rest => key.Returnable resp ∧ value.Returnable resp ∧
      (resp ≠ 2 → key.isNull = false ∧ value.isNull = false) ∧ ReturnableEntries resp rest

end

mutual

/-- The conversion of the reply's value finds room on a stack of this height, at every
level of nesting. -/
def CallReply.FitsBack : CallReply → Nat → Prop
  | .array elements, height => height + 4 ≤ maxCStack ∧ FitBack elements (height + 1)
  | .map entries, height => height + 4 ≤ maxCStack ∧ EntriesFitBack entries height
  | .set elements, height => height + 4 ≤ maxCStack ∧ FitBack elements (height + 3)
  | _, height => height + 4 ≤ maxCStack

/-- The elements find room at this height. -/
def FitBack : List CallReply → Nat → Prop
  | [], _ => True
  | element :: rest, height => element.FitsBack height ∧ FitBack rest height

/-- The keys and the values find room, each at its height. -/
def EntriesFitBack : List (CallReply × CallReply) → Nat → Prop
  | [], _ => True
  | (key, value) :: rest, height =>
      key.FitsBack (height + 4) ∧ value.FitsBack (height + 3) ∧ EntriesFitBack rest height

end

section Texts

/-- The two line ends, as bytes. -/
theorem lineEnds : bytes "\r\n" = [13, 10] := by decide

/-- A line is sent as it is. -/
theorem lineText_of_isLine {text : Bytes} (line : IsLine text) : lineText text = text := by
  have whole : cString text = text :=
    cString_eq_self_iff.mpr fun present => (line 0 present).2.2 rfl
  rw [lineText, whole, strmapchars]
  refine (List.map_congr_left fun char member => ?_).trans (List.map_id text)
  obtain ⟨noReturn, noFeed, -⟩ := line char member
  have blanks : bytes "  " = [32, 32] := by decide
  have notReturn : (char == 13) = false := beq_eq_false_iff_ne.mpr noReturn
  have notFeed : (char == 10) = false := beq_eq_false_iff_ne.mpr noFeed
  simp [lineEnds, blanks, List.lookup_cons, List.lookup_nil, notReturn, notFeed]

/-- The digits of a big number are a line. -/
theorem BigNumber.isLine (number : BigNumber) : IsLine number.text := by
  obtain ⟨sign, digits, shape, isSign, areDigits⟩ := number.numeral
  intro char member
  rw [shape, List.mem_append] at member
  rcases member with inSign | inDigits
  · have known : char = 45 ∨ char = 43 := by
      have minus : bytes "-" = [45] := by decide
      have plus : bytes "+" = [43] := by decide
      rcases isSign with rfl | rfl | rfl
      · cases inSign
      · exact .inl (by simpa [minus] using inSign)
      · exact .inr (by simpa [plus] using inSign)
    rcases known with rfl | rfl <;> decide
  · have digit := List.all_eq_true.mp areDigits char inDigits
    have range : 48 ≤ char ∧ char ≤ 57 := by simpa [isDigit] using digit
    refine ⟨?_, ?_, ?_⟩ <;> rintro rfl <;> exact absurd range.1 (by decide)

/-- Trimming changes nothing where nothing is to be trimmed. -/
theorem ljmStrtrim_eq_self {text cset : Bytes}
    (leading : ∀ char, text.head? = some char → char ∉ cset)
    (trailing : ∀ char, text.getLast? = some char → char ∉ cset) :
    ljmStrtrim text cset = text := by
  rw [ljmStrtrim_eq, trim_eq_self_iff]
  exact ⟨fun char isHead => by simpa using leading char isHead,
    fun char isLast => by simpa using trailing char isLast⟩

/-- The text of an error reply needs no normalising. -/
theorem errorBuffText_of_isErrorText {text : Bytes} (known : IsErrorText text) :
    errorBuffText text = text := by
  have whole : cString text = text := cString_eq_self_iff.mpr known.terminated
  have minus : UInt8.ofNat '-'.toNat = 45 := by decide
  rw [errorBuffText, whole, minus, if_neg known.noMinus]
  exact ljmStrtrim_eq_self known.leading known.trailing

/-- An integer that a double holds is sent as it was. -/
theorem toLuaNumber_toLongLong {value : Int} (small : value.natAbs ≤ 2 ^ 53) :
    (toLuaNumber value).toLongLong = value := by
  have exact' : toLuaNumber value = .finite value := by
    rw [toLuaNumber]
    exact if_pos small
  rw [exact']
  exact Number.toLongLong_intCast (by omega) (by omega)

/-- Such integers stay apart. -/
theorem toLuaNumber_injective {first second : Int} (small : first.natAbs ≤ 2 ^ 53)
    (other : second.natAbs ≤ 2 ^ 53) (same : toLuaNumber first = toLuaNumber second) :
    first = second := by
  rw [← toLuaNumber_toLongLong small, same, toLuaNumber_toLongLong other]

end Texts

section Fields

variable {lua : State} {addr : Addr}

/-- The only field of a table. -/
theorem field_of_single {name : String} {content : Value}
    (table : lua.heap.cells addr = .ofFields [stringField name content]) (other : String) :
    lua.field (.table addr) other = if bytes other = bytes name then content else .nil := by
  have raw : lua.field (.table addr) other =
      (lua.heap.cells addr).rawGet (.string (bytes other)) := rfl
  rw [raw, table, ← Table.empty_store, Table.store_cons, Table.store_nil, stringField,
    Table.rawGet_rawSet _ _ _ (by simp)]
  simp

/-- The fields of a table with two of them. -/
theorem field_of_pair {first second : String} {content more : Value}
    (table : lua.heap.cells addr = .ofFields [stringField first content, stringField second more])
    (other : String) : lua.field (.table addr) other =
      if bytes other = bytes second then more
      else if bytes other = bytes first then content else .nil := by
  have raw : lua.field (.table addr) other =
      (lua.heap.cells addr).rawGet (.string (bytes other)) := rfl
  rw [raw, table, ← Table.empty_store, Table.store_cons, Table.store_cons, Table.store_nil]
  simp only [stringField]
  rw [Table.rawGet_rawSet _ _ _ (by simp), Table.rawGet_rawSet _ _ _ (by simp)]
  simp

/-- A table without a metatable is read without one. -/
theorem quietField_of_bare {name : String} (bare : (lua.heap.cells addr).metatable = none) :
    quietField lua (.table addr) name = some (lua.field (.table addr) name) := by
  have looked : lua.lookup (.table addr) (.string (bytes name)) =
      .value ((lua.heap.cells addr).rawGet (.string (bytes name))) :=
    Heap.index_of_no_metatable _ bare
  rw [quietField, looked]
  rfl

/-- A table of fields has no metatable. -/
theorem ofFields_metatable (fields : List (Value × Value)) :
    (Table.ofFields fields).metatable = none := by
  rw [← Table.empty_store, Table.store_metatable, Table.empty_metatable]

/-- An array has no string keys. -/
theorem field_of_array {i : Nat} {values : List Value}
    (table : lua.heap.cells addr = .ofFields (arrayFields i values)) (name : String) :
    lua.field (.table addr) name = .nil := by
  have raw : lua.field (.table addr) name =
      (lua.heap.cells addr).rawGet (.string (bytes name)) := rfl
  rw [raw, table, Table.rawGet_ofFields_of_notMem arrayFields_keys]

end Fields

section Tables

/-- The number keys of an array start at its first index. -/
theorem le_of_mem_arrayFields {i n : Nat} {values : List Value}
    (member : Value.number (.finite n) ∈ (arrayFields i values).map Prod.fst) : i ≤ n := by
  induction values generalizing i with
  | nil => cases member
  | cons value rest inductionHypothesis =>
      rcases List.mem_cons.mp member with here | later
      · have same : n = i := by simpa using here
        exact same.ge
      · exact Nat.le_of_succ_le (inductionHypothesis later)

/-- The elements of an array are read back by their indices. -/
theorem rawGet_store_arrayFields {i k : Nat} {values : List Value} (table : Table) :
    (table.store (arrayFields i values)).rawGet (.number (.finite (i + k : Nat))) =
      values[k]?.getD (table.rawGet (.number (.finite (i + k : Nat)))) := by
  induction values generalizing table i k with
  | nil => simp [arrayFields]
  | cons value rest inductionHypothesis =>
      cases k with
      | zero =>
          have apart : Value.number (.finite (i : Nat)) ∉ (arrayFields (i + 1) rest).map Prod.fst :=
            fun member => Nat.not_succ_le_self i (le_of_mem_arrayFields member)
          simp only [arrayFields, Table.store_cons, Nat.add_zero, List.getElem?_cons_zero,
            Option.getD_some]
          rw [Table.rawGet_store_of_notMem _ apart, Table.rawGet_rawSet_self _ _ (by simp)]
      | succ k =>
          have shift : i + (k + 1) = i + 1 + k := by omega
          have apart : Value.number (.finite (i + 1 + k : Nat)) ≠ .number (.finite (i : Nat)) := by
            intro same
            have equal : ((i + 1 + k : Nat) : Rat) = (i : Nat) := by
              injection same with same
              injection same
            have here : i + 1 + k = i := Rat.natCast_inj.mp equal
            omega
          rw [shift, arrayFields, Table.store_cons, inductionHypothesis,
            Table.rawGet_rawSet_of_ne _ _ apart, List.getElem?_cons_succ]

/-- Reading stops behind the last element. -/
theorem arrayElements_eq {table : Table} {rounds j : Nat} {values : List Value}
    (present : ∀ value ∈ values, value ≠ .nil)
    (reads : ∀ k, table.rawGet (.number (.finite (j + k : Nat))) = values[k]?.getD .nil)
    (enough : values.length < rounds) : arrayElements table rounds j = values := by
  induction values generalizing rounds j with
  | nil =>
      obtain ⟨rounds, rfl⟩ := Nat.exists_eq_add_one_of_ne_zero (Nat.ne_of_gt enough)
      have first := reads 0
      rw [Nat.add_zero] at first
      simp [arrayElements, first, Value.type]
  | cons value rest inductionHypothesis =>
      obtain ⟨rounds, rfl⟩ := Nat.exists_eq_add_one_of_ne_zero (Nat.ne_of_gt (Nat.zero_lt_of_lt enough))
      have first := reads 0
      rw [Nat.add_zero, List.getElem?_cons_zero, Option.getD_some] at first
      have kept : value.type ≠ .nil := by
        have some' := present value (by simp)
        intro isNil
        cases value <;> first | exact absurd rfl some' | cases isNil
      have others : arrayElements table rounds (j + 1) = rest := by
        apply inductionHypothesis (fun other member => present other (by simp [member]))
        · intro k
          have here := reads (k + 1)
          rwa [List.getElem?_cons_succ, ← Nat.add_assoc, Nat.add_right_comm] at here
        · exact Nat.lt_of_succ_lt_succ enough
      rw [arrayElements, first, if_neg kept, others]

/-- An array is read back whole. -/
theorem arrayElements_ofFields {values : List Value} (present : ∀ value ∈ values, value ≠ .nil) :
    let table := Table.ofFields (arrayFields 1 values)
    arrayElements table (table.entries.entries.length + 1) 1 = values := by
  intro table
  have reads (k : Nat) : table.rawGet (.number (.finite (1 + k : Nat))) = values[k]?.getD .nil := by
    have stored := @rawGet_store_arrayFields 1 k values Table.empty
    rwa [Table.rawGet_empty] at stored
  have long := arrayElements_length_le table (values.length + 1) 1
  rw [arrayElements_eq present reads (Nat.lt_succ_self _)] at long
  exact arrayElements_eq present reads (Nat.lt_succ_of_le long)

/-- The entries of a table are its fields, latest first, when the keys differ. -/
theorem store_entries {fields : List (Value × Value)} {table : Table}
    (usable : ∀ field ∈ fields, field.1 ≠ .nil ∧ field.2 ≠ .nil)
    (distinct : (fields.map Prod.fst).Nodup)
    (fresh : ∀ field ∈ fields, field.1 ∉ table.entries) :
    (table.store fields).entries.entries =
      (fields.map fun field => ⟨field.1, field.2⟩).reverse ++ table.entries.entries := by
  induction fields generalizing table with
  | nil => simp
  | cons field rest inductionHypothesis =>
      obtain ⟨key, value⟩ := usable field (by simp)
      have absent := fresh field (by simp)
      rw [List.map_cons, List.nodup_cons] at distinct
      have stored : (table.rawSet field.1 field.2).entries =
          table.entries.insert field.1 field.2 := by
        simp [Table.rawSet, key, value]
      rw [Table.store_cons, inductionHypothesis (fun other member => usable other (by simp [member]))
        distinct.2, stored, AList.entries_insert_of_notMem absent]
      · simp
      · intro other member
        rw [stored, AList.mem_insert, not_or]
        exact ⟨fun same => distinct.1 (same ▸ List.mem_map_of_mem member),
          fresh other (by simp [member])⟩

end Tables

section Distinct

variable {resp : Nat} {cells : Addr → Table}

/-- A table that stands for a reply is the first one of its encoding. -/
theorem Encodes.table_range {reply : CallReply} {first last addr : Addr}
    (encodes : Encodes resp cells reply first last (.table addr)) : addr = first ∧ first < last := by
  cases reply with
  | string _ | integer _ | bool _ => exact nomatch encodes.1
  | null | arrayNull =>
      obtain ⟨same, -⟩ := encodes
      split at same <;> cases same
  | unknown => exact encodes.elim
  | simpleString _ | error _ | double _ | bigNumber _ =>
      obtain ⟨same, rfl, -⟩ := encodes
      cases same
      exact ⟨rfl, Nat.lt_succ_self _⟩
  | verbatim _ _ =>
      obtain ⟨same, rfl, -⟩ := encodes
      cases same
      exact ⟨rfl, Nat.lt_add_of_pos_right Nat.two_pos⟩
  | array elements =>
      obtain ⟨same, values, -, all⟩ := encodes
      cases same
      exact ⟨rfl, all.le⟩
  | map entries =>
      obtain ⟨same, -, fields, -, all⟩ := encodes
      cases same
      exact ⟨rfl, (Nat.lt_add_of_pos_right Nat.two_pos).trans_le all.le⟩
  | set elements =>
      obtain ⟨same, -, keys, -, all⟩ := encodes
      cases same
      exact ⟨rfl, (Nat.lt_add_of_pos_right Nat.two_pos).trans_le all.le⟩

/-- A value that is no table stands for one reply other than null. -/
theorem Encodes.scalar_eq {reply other : CallReply} {first last first' last' : Addr} {value : Value}
    (encodes : Encodes resp cells reply first last value)
    (again : Encodes resp cells other first' last' value) (scalar : ∀ addr, value ≠ .table addr)
    (returnable : reply.Returnable resp) (returnable' : other.Returnable resp)
    (some' : reply.isNull = false) (some'' : other.isNull = false) : reply = other := by
  have shape {reply : CallReply} {first last : Addr}
      (encodes : Encodes resp cells reply first last value) (returnable : reply.Returnable resp)
      (some' : reply.isNull = false) :
      (∃ text, value = .string text ∧ reply = .string text) ∨
        (∃ flag, value = .boolean flag ∧ reply = .bool flag) ∨
        ∃ number, value = .number (toLuaNumber number) ∧ reply = .integer number ∧
          number.natAbs ≤ 2 ^ 53 := by
    cases reply with
    | string text => exact .inl ⟨text, encodes.1, rfl⟩
    | bool flag => exact .inr (.inl ⟨flag, encodes.1, rfl⟩)
    | integer number => exact .inr (.inr ⟨number, encodes.1, rfl, returnable⟩)
    | null | arrayNull => cases some'
    | unknown => exact encodes.elim
    | _ => exact absurd encodes.1 (scalar _)
  rcases shape encodes returnable some' with
    ⟨text, rfl, rfl⟩ | ⟨flag, rfl, rfl⟩ | ⟨number, rfl, rfl, small⟩
  · rcases shape again returnable' some'' with
      ⟨text', same, rfl⟩ | ⟨flag', same, -⟩ | ⟨number', same, -⟩
    · cases same
      rfl
    · cases same
    · cases same
  · rcases shape again returnable' some'' with
      ⟨text', same, -⟩ | ⟨flag', same, rfl⟩ | ⟨number', same, -⟩
    · cases same
    · cases same
      rfl
    · cases same
  · rcases shape again returnable' some'' with
      ⟨text', same, -⟩ | ⟨flag', same, -⟩ | ⟨number', same, rfl, small'⟩
    · cases same
    · cases same
    · injection same with same
      rw [toLuaNumber_injective small small' same]

/-- Values that stand for replies, the tables of each behind those of the one before. -/
def Spread (resp : Nat) (cells : Addr → Table) : List CallReply → Addr → List Value → Prop
  | [], _, values => values = []
  | element :: rest, first, values => ∃ value others start stop, values = value :: others ∧
      first ≤ start ∧ Encodes resp cells element start stop value ∧
      Spread resp cells rest stop others

/-- The tables of elements that follow each other are spread. -/
theorem EncodesAll.spread {elements : List CallReply} {first last : Addr} {values : List Value}
    (encodes : EncodesAll resp cells elements first last values) :
    Spread resp cells elements first values := by
  induction elements generalizing first values with
  | nil => exact encodes.1
  | cons element rest inductionHypothesis =>
      obtain ⟨value, others, mid, shape, head, tail⟩ := encodes
      exact ⟨value, others, first, mid, shape, Nat.le_refl _, head, inductionHypothesis tail⟩

/-- Values may start later. -/
theorem Spread.widen {elements : List CallReply} {first later : Addr} {values : List Value}
    (spread : Spread resp cells elements later values) (order : first ≤ later) :
    Spread resp cells elements first values := by
  cases elements with
  | nil => exact spread
  | cons element rest =>
      obtain ⟨value, others, start, stop, shape, above, parts⟩ := spread
      exact ⟨value, others, start, stop, shape, order.trans above, parts⟩

/-- The tables of keys are spread: between them are those of the values. -/
theorem EncodesEntries.spread {entries : List (CallReply × CallReply)} {first last : Addr}
    {fields : List (Value × Value)}
    (encodes : EncodesEntries resp cells entries first last fields) :
    Spread resp cells (entries.map Prod.fst) first (fields.map Prod.fst) := by
  induction entries generalizing first fields with
  | nil =>
      obtain ⟨rfl, -⟩ := encodes
      rfl
  | cons entry rest inductionHypothesis =>
      obtain ⟨key, value, others, mid, after, rfl, first', second, tail⟩ := encodes
      exact ⟨key, others.map Prod.fst, first, mid, rfl, Nat.le_refl _, first',
        (inductionHypothesis tail).widen second.le⟩

/-- Each of the values stands for one of the replies. -/
theorem Spread.exists_of_mem {elements : List CallReply} {first : Addr} {values : List Value}
    {value : Value} (spread : Spread resp cells elements first values) (member : value ∈ values) :
    ∃ element ∈ elements, ∃ start stop, first ≤ start ∧
      Encodes resp cells element start stop value := by
  induction elements generalizing first values with
  | nil =>
      rw [show values = [] from spread] at member
      cases member
  | cons element rest inductionHypothesis =>
      obtain ⟨head, others, start, stop, rfl, above, encodes, tail⟩ := spread
      rcases List.mem_cons.mp member with rfl | later
      · exact ⟨element, by simp, start, stop, above, encodes⟩
      · obtain ⟨other, member, start', stop', above', encodes'⟩ := inductionHypothesis tail later
        exact ⟨other, by simp [member], start', stop',
          (above.trans encodes.le).trans above', encodes'⟩

/-- Different replies become different keys. -/
theorem Spread.nodup {elements : List CallReply} {first : Addr} {values : List Value}
    (spread : Spread resp cells elements first values) (distinct : elements.Nodup)
    (returnable : ∀ element ∈ elements, element.Returnable resp ∧ element.isNull = false) :
    values.Nodup := by
  induction elements generalizing first values with
  | nil =>
      rw [show values = [] from spread]
      exact List.nodup_nil
  | cons element rest inductionHypothesis =>
      obtain ⟨value, others, start, stop, rfl, above, encodes, tail⟩ := spread
      rw [List.nodup_cons] at distinct ⊢
      refine ⟨fun again => ?_, inductionHypothesis tail distinct.2
        fun other member => returnable other (by simp [member])⟩
      obtain ⟨other, member, start', stop', after, encodes'⟩ := tail.exists_of_mem again
      by_cases table : ∃ addr, value = .table addr
      · obtain ⟨addr, rfl⟩ := table
        have here := encodes.table_range
        have there := encodes'.table_range
        have order : start < start' := here.2.trans_le after
        exact absurd (here.1.symm.trans there.1) (Nat.ne_of_lt order)
      · have scalar : ∀ addr, value ≠ .table addr := fun addr same => table ⟨addr, same⟩
        have same := encodes.scalar_eq encodes' scalar (returnable element (by simp)).1
          (returnable other (by simp [member])).1 (returnable element (by simp)).2
          (returnable other (by simp [member])).2
        exact distinct.1 (same ▸ member)

end Distinct

section Rendering

variable {resp : Nat}

/-- Every element comes back. -/
theorem returnableAll_iff {elements : List CallReply} : ReturnableAll resp elements ↔
    ∀ element ∈ elements, element.Returnable resp ∧ (resp ≠ 2 → element.isNull = false) := by
  induction elements with
  | nil => simp [ReturnableAll]
  | cons element rest inductionHypothesis => simp [ReturnableAll, inductionHypothesis, and_assoc]

/-- Every key and every value comes back. -/
theorem returnableEntries_iff {entries : List (CallReply × CallReply)} :
    ReturnableEntries resp entries ↔ ∀ entry ∈ entries, entry.1.Returnable resp ∧
      entry.2.Returnable resp ∧ (resp ≠ 2 → entry.1.isNull = false ∧ entry.2.isNull = false) := by
  induction entries with
  | nil => simp [ReturnableEntries]
  | cons entry rest inductionHypothesis =>
      simp only [ReturnableEntries, inductionHypothesis, List.forall_mem_cons, and_assoc]

/-- A value that is not nil. -/
theorem Encodes.ne_nil {cells : Addr → Table} {reply : CallReply} {first last : Addr} {value : Value}
    (encodes : Encodes resp cells reply first last value) (some' : resp ≠ 2 → reply.isNull = false) :
    value ≠ .nil := by
  have clear : reply.nilFault resp = none := by
    by_cases old : resp = 2
    · simp [CallReply.nilFault, old]
    · simp [CallReply.nilFault, some' old]
  rcases encodes.keyFault with ⟨-, storable⟩ | ⟨fault, -⟩
  · rintro rfl
    cases storable
  · rw [clear] at fault
    cases fault

/-- Neither keys nor values are nil. -/
theorem EncodesEntries.usable {cells : Addr → Table} {entries : List (CallReply × CallReply)}
    {first last : Addr} {fields : List (Value × Value)}
    (encodes : EncodesEntries resp cells entries first last fields)
    (some' : ∀ entry ∈ entries, resp ≠ 2 → entry.1.isNull = false ∧ entry.2.isNull = false) :
    ∀ field ∈ fields, field.1 ≠ .nil ∧ field.2 ≠ .nil := by
  induction entries generalizing first fields with
  | nil =>
      obtain ⟨rfl, -⟩ := encodes
      simp
  | cons entry rest inductionHypothesis =>
      obtain ⟨key, value, others, mid, after, rfl, encodesKey, encodesValue, tail⟩ := encodes
      have here := some' entry (by simp)
      refine List.forall_mem_cons.mpr ⟨⟨?_, ?_⟩, ?_⟩
      · exact encodesKey.ne_nil fun modern => (here modern).1
      · exact encodesValue.ne_nil fun modern => (here modern).2
      · exact inductionHypothesis tail fun other member => some' other (by simp [member])

/-- Rendering this reply's value gives tokens that are the reply. -/
def RendersBack (resp : Nat) (lua : State) (reply : CallReply) : Prop :=
  ∀ {first last : Addr} {value : Value} {fuel height : Nat},
    Encodes resp lua.heap.cells reply first last value → reply.Returnable resp →
    reply.FitsBack height → maxCStack < fuel + 1 + height →
    ∃ tokens, renderValue lua resp (fuel + 1) height value = some tokens ∧ Emits reply tokens

/-- There are four slots for the reply itself. -/
theorem CallReply.FitsBack.room {reply : CallReply} {height : Nat} (fits : reply.FitsBack height) :
    height + 4 ≤ maxCStack := by
  cases reply with
  | array _ | map _ | set _ => exact fits.1
  | _ => exact fits

/-- Where the stack has room there is another level of recursion. -/
theorem RendersBack.deeper {lua : State} {reply : CallReply} {first last : Addr} {value : Value}
    {fuel height : Nat} (renders : RendersBack resp lua reply)
    (encodes : Encodes resp lua.heap.cells reply first last value)
    (returnable : reply.Returnable resp) (fits : reply.FitsBack height)
    (enough : maxCStack < fuel + height) :
    ∃ tokens, renderValue lua resp fuel height value = some tokens ∧ Emits reply tokens := by
  have room := fits.room
  obtain ⟨less, rfl⟩ : ∃ less, fuel = less + 1 := ⟨fuel - 1, by omega⟩
  exact renders encodes returnable fits enough

section Containers

variable {lua : State} {fuel height above : Nat}

/-- The values of elements render back one by one. -/
theorem renderAll_emits {elements : List CallReply} {first last : Addr} {values : List Value}
    (each : ∀ element ∈ elements, RendersBack resp lua element)
    (encodes : EncodesAll resp lua.heap.cells elements first last values)
    (returnable : ∀ element ∈ elements, element.Returnable resp)
    (fits : FitBack elements (height + above)) (enough : maxCStack < fuel + (height + above)) :
    List.Forall₂ (fun element value => ∃ tokens,
      renderValue lua resp fuel (height + above) value = some tokens ∧ Emits element tokens)
      elements values := by
  induction elements generalizing first values with
  | nil =>
      obtain ⟨rfl, -⟩ := encodes
      exact .nil
  | cons element rest inductionHypothesis =>
      obtain ⟨value, others, mid, rfl, head, tail⟩ := encodes
      refine .cons ?_ ?_
      · exact RendersBack.deeper (each element (by simp)) head (returnable element (by simp)) fits.1 enough
      · exact inductionHypothesis (fun other member => each other (by simp [member])) tail
          (fun other member => returnable other (by simp [member])) fits.2

/-- Values rendered one by one are rendered together. -/
theorem renderAll_of_forall₂ {elements : List CallReply} {values : List Value}
    (each : List.Forall₂ (fun element value => ∃ tokens,
      renderValue lua resp fuel (height + above) value = some tokens ∧ Emits element tokens)
      elements values) :
    ∃ tokens, renderAll (renderValue lua resp fuel) height above values = some tokens ∧
      EmitsAll elements tokens := by
  induction each with
  | nil => exact ⟨[], rfl, .nil⟩
  | cons head tail inductionHypothesis =>
      obtain ⟨tokens, rendered, emits⟩ := head
      obtain ⟨others, renderedAll, emitsAll⟩ := inductionHypothesis
      exact ⟨tokens ++ others, by simp [renderAll, rendered, renderedAll], .cons emits emitsAll⟩

/-- The entry and the field have the same tokens, each at its height. -/
def EntryRenders (resp : Nat) (lua : State) (fuel height : Nat) (entry : CallReply × CallReply)
    (field : Sigma fun _ : Value => Value) : Prop :=
  (∃ tokens, renderValue lua resp fuel (height + 4) field.1 = some tokens ∧ Emits entry.1 tokens) ∧
    ∃ tokens, renderValue lua resp fuel (height + 3) field.2 = some tokens ∧ Emits entry.2 tokens

/-- The values of entries render back one by one. -/
theorem renderEntries_emits {entries : List (CallReply × CallReply)} {first last : Addr}
    {fields : List (Value × Value)}
    (each : ∀ entry ∈ entries, RendersBack resp lua entry.1 ∧ RendersBack resp lua entry.2)
    (encodes : EncodesEntries resp lua.heap.cells entries first last fields)
    (returnable : ∀ entry ∈ entries, entry.1.Returnable resp ∧ entry.2.Returnable resp)
    (fits : EntriesFitBack entries height) (enough : maxCStack < fuel + (height + 3)) :
    List.Forall₂ (EntryRenders resp lua fuel height) entries
      (fields.map fun field => ⟨field.1, field.2⟩) := by
  induction entries generalizing first fields with
  | nil =>
      obtain ⟨rfl, -⟩ := encodes
      exact .nil
  | cons entry rest inductionHypothesis =>
      obtain ⟨key, value, others, mid, after, rfl, encodesKey, encodesValue, tail⟩ := encodes
      obtain ⟨rendersKey, rendersValue⟩ := each entry (by simp)
      obtain ⟨returnableKey, returnableValue⟩ := returnable entry (by simp)
      refine .cons ⟨?_, ?_⟩ ?_
      · exact RendersBack.deeper rendersKey encodesKey returnableKey fits.1 (by omega)
      · exact RendersBack.deeper rendersValue encodesValue returnableValue fits.2.1 enough
      · exact inductionHypothesis (fun other member => each other (by simp [member])) tail
          (fun other member => returnable other (by simp [member])) fits.2.2

/-- Entries rendered one by one are rendered together. -/
theorem renderEntries_of_forall₂ {entries : List (CallReply × CallReply)}
    {fields : List (Sigma fun _ : Value => Value)}
    (each : List.Forall₂ (EntryRenders resp lua fuel height) entries fields) :
    ∃ tokens, renderEntries (renderValue lua resp fuel) height fields = some tokens ∧
      EmitsEntries entries tokens := by
  induction each with
  | nil => exact ⟨[], rfl, .nil⟩
  | cons head tail inductionHypothesis =>
      obtain ⟨⟨first, renderedFirst, emitsFirst⟩, second, renderedSecond, emitsSecond⟩ := head
      obtain ⟨others, renderedAll, emitsAll⟩ := inductionHypothesis
      exact ⟨first ++ second ++ others, by
        simp [renderEntries, renderedFirst, renderedSecond, renderedAll],
        .cons emitsFirst emitsSecond emitsAll⟩

end Containers

section Leaves

variable {lua : State} {fuel height : Nat} {addr : Addr}

/-- A leaf is one token. -/
theorem rendersBack_token {reply : CallReply} {value : Value} {token : Token}
    (rendered : renderValue lua resp (fuel + 1) height value = some [token])
    (isToken : reply.leafToken = some token) :
    ∃ tokens, renderValue lua resp (fuel + 1) height value = some tokens ∧ Emits reply tokens :=
  ⟨[token], rendered, .leaf isToken⟩

/-- Where there is room a table is rendered by the tests on its fields. -/
theorem renderValue_table (room : height + 4 ≤ maxCStack) :
    renderValue lua resp (fuel + 1) height (.table addr) =
      renderTable lua (renderValue lua resp fuel) height (.table addr) := by
  simp only [renderValue, if_pos room]

variable {render : Nat → Value → Option (List Token)}

/-- The table of an error is sent as the error. -/
theorem renderTable_error {text : Bytes} (known : IsErrorText text)
    (table : lua.heap.cells addr = .ofFields (errorReplyFields text)) :
    renderTable lua render height (.table addr) = some [.error text false] := by
  have bare : (lua.heap.cells addr).metatable = none := by rw [table, ofFields_metatable]
  have whole : cString text = text := cString_eq_self_iff.mpr known.terminated
  have err : lua.field (.table addr) "err" = .string text := by
    rw [field_of_pair table, if_neg (by decide), if_pos rfl, errorBuffText_of_isErrorText known]
  have source : lua.field (.table addr) "source" = .nil := by
    rw [field_of_pair table, if_neg (by decide), if_neg (by decide)]
  have line : lua.field (.table addr) "line" = .nil := by
    rw [field_of_pair table, if_neg (by decide), if_neg (by decide)]
  have ignored : lua.field (.table addr) "ignore_error_stats_update" = .boolean true := by
    rw [field_of_pair table, if_pos rfl]
  simp [renderTable, renderError, quietField_of_bare bare, err, source, line, ignored, whole,
    Value.type, Value.stringBytes, Value.isBoolean, Value.toBoolean]

/-- In a table whose only field has another name, a test fails. -/
theorem field_other {name other : String} {content : Value}
    (table : lua.heap.cells addr = .ofFields [stringField name content])
    (apart : bytes other ≠ bytes name) : lua.field (.table addr) other = .nil := by
  rw [field_of_single table, if_neg apart]

/-- Its own name finds the field. -/
theorem field_same {name : String} {content : Value}
    (table : lua.heap.cells addr = .ofFields [stringField name content]) :
    lua.field (.table addr) name = content := by rw [field_of_single table, if_pos rfl]

/-- The table of a simple string is sent as the line. -/
theorem renderTable_simple {text : Bytes} (line : IsLine text)
    (table : lua.heap.cells addr = .ofFields [stringField "ok" (.string text)]) :
    renderTable lua render height (.table addr) = some [.simple text] := by
  have err := field_other table (show bytes "err" ≠ bytes "ok" by decide)
  simp [renderTable, err, field_same table, Value.type, Value.stringBytes,
    lineText_of_isLine line]

/-- The table of a double is sent as the double. -/
theorem renderTable_double {number : Number}
    (table : lua.heap.cells addr = .ofFields [stringField "double" (.number number)]) :
    renderTable lua render height (.table addr) = some [.double number] := by
  have err := field_other table (show bytes "err" ≠ bytes "double" by decide)
  have ok := field_other table (show bytes "ok" ≠ bytes "double" by decide)
  simp [renderTable, err, ok, field_same table, Value.type, Value.doubleOf]

/-- The table of a big number is sent as its digits. -/
theorem renderTable_bigNumber {number : BigNumber}
    (table : lua.heap.cells addr = .ofFields [stringField "big_number" (.string number.text)]) :
    renderTable lua render height (.table addr) = some [.bigNumber number.text] := by
  have err := field_other table (show bytes "err" ≠ bytes "big_number" by decide)
  have ok := field_other table (show bytes "ok" ≠ bytes "big_number" by decide)
  have double := field_other table (show bytes "double" ≠ bytes "big_number" by decide)
  simp [renderTable, err, ok, double, field_same table, Value.type, Value.stringBytes,
    lineText_of_isLine number.isLine]

/-- The tables of a verbatim text are sent as text and format. -/
theorem renderTable_verbatim {text : Bytes} {format : VerbatimFormat}
    (table : lua.heap.cells addr = .ofFields [stringField "verbatim_string" (.table (addr + 1))])
    (inner : lua.heap.cells (addr + 1) =
      .ofFields [stringField "string" (.string text), stringField "format" (.string format.text)]) :
    renderTable lua render height (.table addr) = some [.verbatim text format.text] := by
  have err := field_other table (show bytes "err" ≠ bytes "verbatim_string" by decide)
  have ok := field_other table (show bytes "ok" ≠ bytes "verbatim_string" by decide)
  have double := field_other table (show bytes "double" ≠ bytes "verbatim_string" by decide)
  have big := field_other table (show bytes "big_number" ≠ bytes "verbatim_string" by decide)
  have whole : cString format.text = format.text := cString_eq_self_iff.mpr format.printable
  have isText : lua.field (.table (addr + 1)) "string" = .string text := by
    rw [field_of_pair inner, if_neg (by decide), if_pos rfl]
  have isFormat : lua.field (.table (addr + 1)) "format" = .string format.text := by
    rw [field_of_pair inner, if_pos rfl]
  simp [renderTable, err, ok, double, big, verbatimToken, field_same table, Value.type, isText,
    isFormat, Value.stringBytes, whole]

/-- In a table whose only field is of a container, the earlier tests fail. -/
theorem field_plain {field : String} {content : Value}
    (table : lua.heap.cells addr = .ofFields [stringField field content])
    (apart : ∀ name ∈ ["err", "ok", "double", "big_number", "verbatim_string"],
      bytes name ≠ bytes field) :
    ∀ name ∈ ["err", "ok", "double", "big_number", "verbatim_string"],
      lua.field (.table addr) name = .nil :=
  fun name member => field_other table (apart name member)

/-- A table that no earlier test recognises is tested for a map, a set and an array. -/
theorem renderTable_container
    (plain : ∀ name ∈ ["err", "ok", "double", "big_number", "verbatim_string"],
      lua.field (.table addr) name = .nil) :
    renderTable lua render height (.table addr) =
      if (lua.field (.table addr) "map").type = .table then
        let entries := (lua.tableOf (lua.field (.table addr) "map")).entries.entries
        (renderEntries render height entries).map fun tokens =>
          .openMap :: tokens ++ [.closeMap entries.length]
      else if (lua.field (.table addr) "set").type = .table then
        let entries := (lua.tableOf (lua.field (.table addr) "set")).entries.entries
        (renderAll render height 3 (entries.map Sigma.fst)).map fun tokens =>
          .openSet :: tokens ++ [.closeSet entries.length]
      else
        let elements := arrayElements (lua.heap.cells addr)
          ((lua.heap.cells addr).entries.entries.length + 1) 1
        (renderAll render height 1 elements).map fun tokens =>
          .openArray :: tokens ++ [.closeArray elements.length] := by
  simp only [List.forall_mem_cons, List.not_mem_nil, false_implies, implies_true, and_true] at plain
  obtain ⟨err, ok, double, big, verbatim⟩ := plain
  simp [renderTable, err, ok, double, big, verbatimToken, verbatim, Value.type, State.tableOf]

end Leaves

/-- The value of a reply is rendered to tokens that are the reply. -/
theorem Encodes.rendersBack (lua : State) (reply : CallReply) : RendersBack resp lua reply := by
  induction reply with
  | unknown => exact fun encodes => encodes.elim
  | string text =>
      intro first last value fuel height encodes returnable fits enough
      have room := fits.room
      obtain ⟨rfl, -⟩ := encodes
      exact rendersBack_token (by simp [renderValue, room]) rfl
  | integer number =>
      intro first last value fuel height encodes returnable fits enough
      have room := fits.room
      obtain ⟨rfl, -⟩ := encodes
      exact rendersBack_token (by simp [renderValue, room, toLuaNumber_toLongLong returnable]) rfl
  | bool flag =>
      intro first last value fuel height encodes returnable fits enough
      have room := fits.room
      obtain ⟨rfl, -⟩ := encodes
      have modern : resp ≠ 2 := returnable
      exact rendersBack_token (by simp [renderValue, room, modern]) rfl
  | null | arrayNull =>
      intro first last value fuel height encodes returnable fits enough
      have room := fits.room
      obtain ⟨rfl, -⟩ := encodes
      refine rendersBack_token ?_ rfl
      by_cases old : resp = 2 <;> simp [renderValue, room, old]
  | simpleString text =>
      intro first last value fuel height encodes returnable fits enough
      have room := fits.room
      obtain ⟨rfl, -, table⟩ := encodes
      exact rendersBack_token (by rw [renderValue_table room, renderTable_simple returnable table]) rfl
  | error text =>
      intro first last value fuel height encodes returnable fits enough
      have room := fits.room
      obtain ⟨rfl, -, table⟩ := encodes
      exact rendersBack_token (by rw [renderValue_table room, renderTable_error returnable table]) rfl
  | double number =>
      intro first last value fuel height encodes returnable fits enough
      have room := fits.room
      obtain ⟨rfl, -, table⟩ := encodes
      exact rendersBack_token (by rw [renderValue_table room, renderTable_double table]) rfl
  | bigNumber number =>
      intro first last value fuel height encodes returnable fits enough
      have room := fits.room
      obtain ⟨rfl, -, table⟩ := encodes
      exact rendersBack_token (by rw [renderValue_table room, renderTable_bigNumber table]) rfl
  | verbatim text format =>
      intro first last value fuel height encodes returnable fits enough
      have room := fits.room
      obtain ⟨rfl, -, table, inner⟩ := encodes
      exact rendersBack_token (by rw [renderValue_table room, renderTable_verbatim table inner]) rfl
  | array elements each =>
      intro first last value fuel height encodes returnable fits enough
      have room := fits.room
      obtain ⟨rfl, values, table, all⟩ := encodes
      have members := returnableAll_iff.mp returnable
      have deeper : maxCStack < fuel + (height + 1) := by omega
      have rendered := renderAll_emits each all (fun element member => (members element member).1)
        fits.2 deeper
      obtain ⟨tokens, renderedAll, emits⟩ := renderAll_of_forall₂ rendered
      have present : ∀ value ∈ values, value ≠ .nil := by
        intro value member
        obtain ⟨element, inside, start, stop, -, encodes⟩ := all.spread.exists_of_mem member
        exact encodes.ne_nil (members element inside).2
      refine ⟨_, ?_, .array emits⟩
      rw [renderValue_table room, renderTable_container fun name _ => field_of_array table name,
        field_of_array table, field_of_array table, table, arrayElements_ofFields present]
      simp [Value.type, renderedAll, rendered.length_eq]
  | map entries each =>
      intro first last value fuel height encodes returnable fits enough
      have room := fits.room
      obtain ⟨rfl, outer, fields, inner, all⟩ := encodes
      obtain ⟨modern, distinct, members⟩ := returnable
      have members := returnableEntries_iff.mp members
      have deeper : maxCStack < fuel + (height + 3) := by omega
      have rendered := renderEntries_emits each all
        (fun entry member => ⟨(members entry member).1, (members entry member).2.1⟩) fits.2 deeper
      have keys : ∀ key ∈ entries.map Prod.fst, key.Returnable resp ∧ key.isNull = false := by
        intro key member
        obtain ⟨entry, inside, rfl⟩ := List.mem_map.mp member
        exact ⟨(members entry inside).1, ((members entry inside).2.2 modern).1⟩
      have keysDistinct := all.spread.nodup distinct keys
      have stored : (lua.heap.cells (first + 1)).entries.entries =
          (fields.map fun field => ⟨field.1, field.2⟩).reverse := by
        rw [inner, ← Table.empty_store, store_entries]
        · simp [Table.empty]
        · exact all.usable fun entry member => (members entry member).2.2
        · exact keysDistinct
        · simp [Table.empty]
      obtain ⟨tokens, renderedAll, emits⟩ :=
        renderEntries_of_forall₂ (List.forall₂_reverse_iff.mpr rendered)
      refine ⟨_, ?_, .map (List.reverse_perm entries) emits⟩
      have count := rendered.length_eq
      rw [List.length_map] at count
      rw [renderValue_table room, renderTable_container (field_plain outer (by decide)),
        field_same outer]
      simp [Value.type, State.tableOf, stored, renderedAll, count]
  | set elements each =>
      intro first last value fuel height encodes returnable fits enough
      have room := fits.room
      obtain ⟨rfl, outer, keys, inner, all⟩ := encodes
      obtain ⟨modern, distinct, members⟩ := returnable
      have members := returnableAll_iff.mp members
      have deeper : maxCStack < fuel + (height + 3) := by omega
      have rendered := renderAll_emits each all (fun element member => (members element member).1)
        fits.2 deeper
      have some' (element : CallReply) (member : element ∈ elements) :
          element.Returnable resp ∧ element.isNull = false :=
        ⟨(members element member).1, (members element member).2 modern⟩
      have keysDistinct := all.spread.nodup distinct some'
      have present : ∀ key ∈ keys, key ≠ .nil := by
        intro key member
        obtain ⟨element, inside, start, stop, -, encodes⟩ := all.spread.exists_of_mem member
        exact encodes.ne_nil (members element inside).2
      have entries : (lua.heap.cells (first + 1)).entries.entries =
          (keys.map fun key => (⟨key, .boolean true⟩ : Sigma fun _ : Value => Value)).reverse := by
        rw [inner, ← Table.empty_store, store_entries]
        · simp [Table.empty, Function.comp_def]
        · simpa using present
        · simpa [Function.comp_def] using keysDistinct
        · simp [Table.empty]
      obtain ⟨tokens, renderedAll, emits⟩ := renderAll_of_forall₂ (List.forall₂_reverse_iff.mpr rendered)
      refine ⟨_, ?_, .set (List.reverse_perm elements) emits⟩
      rw [renderValue_table room, renderTable_container (field_plain outer (by decide)),
        field_same outer, field_other outer (by decide)]
      simp [Value.type, State.tableOf, entries, ← List.map_reverse, Function.comp_def, renderedAll,
        rendered.length_eq]

end Rendering

section StackLimit

variable {resp : Nat}

/-- The only thing that can stop a conversion is the end of the stack. -/
def AtMostStack (fault : Option ConversionFault) : Prop := fault = none ∨ fault = some .stackLimit

/-- The first of two such faults is such a fault. -/
theorem AtMostStack.or {first second : Option ConversionFault} (before : AtMostStack first)
    (after : AtMostStack second) : AtMostStack (first.or second) := by
  rcases before with rfl | rfl
  · simpa using after
  · exact .inr rfl

/-- A check of the slots finds no other fault. -/
theorem atMostStack_stackFault (extra height : Nat) : AtMostStack (stackFault extra height) := by
  unfold stackFault
  split
  · exact .inl rfl
  · exact .inr rfl

/-- A key that is not null can be stored. -/
theorem atMostStack_nilFault {key : CallReply} (some' : resp ≠ 2 → key.isNull = false) :
    AtMostStack (key.nilFault resp) := by
  by_cases old : resp = 2
  · simp [AtMostStack, CallReply.nilFault, old]
  · simp [AtMostStack, CallReply.nilFault, some' old]

/-- Converting a reply that can come back fails for want of stack only. -/
theorem CallReply.Returnable.atMostStack {reply : CallReply} (returnable : reply.Returnable resp)
    (height : Nat) : AtMostStack (reply.fault resp height) := by
  induction reply generalizing height with
  | unknown => exact returnable.elim
  | array elements each =>
      refine (atMostStack_stackFault 2 height).or ?_
      induction elements with
      | nil => exact .inl rfl
      | cons element rest inductionHypothesis =>
          obtain ⟨here, -, others⟩ := returnable
          refine (each element (by simp) here _).or ?_
          exact inductionHypothesis (fun other member => each other (by simp [member])) others
  | map entries each =>
      obtain ⟨-, -, members⟩ := returnable
      refine (atMostStack_stackFault 3 height).or ?_
      induction entries with
      | nil => exact .inl rfl
      | cons entry rest inductionHypothesis =>
          obtain ⟨key, value, some', others⟩ := members
          obtain ⟨convertKey, convertValue⟩ := each entry (by simp)
          refine (convertKey key _).or ((convertValue value _).or ?_)
          refine (atMostStack_nilFault fun modern => (some' modern).1).or ?_
          exact inductionHypothesis (fun other member => each other (by simp [member])) others
  | set elements each =>
      obtain ⟨-, -, members⟩ := returnable
      refine (atMostStack_stackFault 3 height).or ?_
      induction elements with
      | nil => exact .inl rfl
      | cons element rest inductionHypothesis =>
          obtain ⟨here, some', others⟩ := members
          refine (each element (by simp) here _).or ((atMostStack_nilFault some').or ?_)
          exact inductionHypothesis (fun other member => each other (by simp [member])) others
  | _ => exact atMostStack_stackFault _ _

end StackLimit

/-- A reply within the stack limit becomes a value whose conversion, in the same RESP
version and with the value's tables left alone, sends that reply again. -/
theorem reply_comes_back {σ : Type} (rt : Runtime) (resp : Nat) (reply : CallReply)
    (returnable : reply.Returnable resp) (start : World σ)
    (fits : reply.fault resp start.frame.length ≠ some .stackLimit) :
    ∃ value heap, callReplyToLuaType rt resp reply start =
        .done () ((start.setHeap heap).push value) ∧
      ∀ later : World CallHost,
        AgreeOn heap.cells later.lua.heap.cells start.lua.heap.next heap.next →
        reply.FitsBack (later.stack.length + 1) →
        ∃ tokens, Emits reply tokens ∧
          luajitReplyToServerReply rt resp (maxCStack + 1) (later.push value) =
            .done () (later.setHost (later.host.send tokens)) := by
  have converts : Converts σ rt resp reply := callReplyToLuaType_ends reply
  have ends := converts start
  rw [(returnable.atMostStack _).resolve_right fits] at ends
  obtain ⟨final, run, -, value, heap, rfl, -, encodes⟩ := ends
  refine ⟨value, heap, run, fun later agree room => ?_⟩
  obtain ⟨frame, base, breached, lua, host, calls⟩ := later
  rw [World.stack_mk, List.length_append] at room
  obtain ⟨tokens, rendered, emits⟩ := Encodes.rendersBack lua reply (encodes.frame agree) returnable
    room (Nat.lt_add_right _ (Nat.lt_succ_self maxCStack))
  exact ⟨tokens, emits, luajitReplyToServerReply_renders rt lua resp (maxCStack + 1) breached host
    calls rendered⟩

/-- A map of a string and a simple string, to a set and to an array. -/
def sampleReply : CallReply :=
  .map [(.string (bytes "k"), .set [.integer 1, .bool false]),
    (.simpleString (bytes "k"), .array [.error (bytes "ERR no"), .double .nan])]

/-- An empty stack of a function of the module. -/
def sampleWorld : World CallHost where
  frame := []
  base := []
  breached := false
  lua := ⟨default, 0, fun _ => .nil, fun _ => .empty, none⟩
  host := ⟨none, []⟩
  metaCalls := []

theorem sample_reply_comes_back :
    sampleReply.Returnable 3 ∧
    ∃ value heap, callReplyToLuaType .plain 3 sampleReply sampleWorld =
        .done () ((sampleWorld.setHeap heap).push value) ∧
      ∀ later : World CallHost,
        AgreeOn heap.cells later.lua.heap.cells sampleWorld.lua.heap.next heap.next →
        sampleReply.FitsBack (later.stack.length + 1) →
        ∃ tokens, Emits sampleReply tokens ∧
          luajitReplyToServerReply .plain 3 (maxCStack + 1) (later.push value) =
            .done () (later.setHost (later.host.send tokens)) := by
  have text : IsErrorText (bytes "ERR no") := by
    constructor
    · decide
    · decide
    · rintro char same
      cases same
      decide
    · rintro char same
      cases same
      decide
  have line : IsLine (bytes "k") := by
    have letter : bytes "k" = [107] := by decide
    rw [letter]
    intro char member
    cases List.mem_singleton.mp member
    decide
  have apart : [CallReply.string (bytes "k"), .simpleString (bytes "k")].Nodup := by
    refine List.nodup_cons.mpr ⟨fun member => ?_, List.nodup_singleton _⟩
    cases List.mem_singleton.mp member
  have differ : [CallReply.integer 1, .bool false].Nodup := by
    refine List.nodup_cons.mpr ⟨fun member => ?_, List.nodup_singleton _⟩
    cases List.mem_singleton.mp member
  have modern : 3 ≠ 2 := by decide
  have small : (1 : Int).natAbs ≤ 2 ^ 53 := by decide
  have inner : ReturnableAll 3 [.integer 1, .bool false] :=
    ⟨small, fun _ => rfl, modern, fun _ => rfl, trivial⟩
  have elements : ReturnableAll 3 [.error (bytes "ERR no"), .double .nan] :=
    ⟨text, fun _ => rfl, modern, fun _ => rfl, trivial⟩
  have returnable : sampleReply.Returnable 3 :=
    ⟨modern, apart, trivial, ⟨modern, differ, inner⟩, fun _ => ⟨rfl, rfl⟩, line, elements,
      fun _ => ⟨rfl, rfl⟩, trivial⟩
  exact ⟨returnable, reply_comes_back .plain 3 sampleReply returnable sampleWorld (by decide)⟩

end ValkeyLuajit
