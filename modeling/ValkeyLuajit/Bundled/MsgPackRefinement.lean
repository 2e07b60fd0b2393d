import ValkeyLuajit.Bundled.MsgPackReader

/-!
# The MessagePack decoder follows the reader

On every input the cursor stays inside the string, a value is decoded to fresh tables that show
its tree, and an error is the one of the reader.
-/

namespace ValkeyLuajit

open Lua

section Following

variable {α β γ δ : Type} {reading : Reading MpFault β} {result : Except MpFault α}

/-- The result is what the reading says: its error, else something that agrees. -/
def Follows (agrees : β → Bytes → α → Prop) (reading : Reading MpFault β)
    (result : Except MpFault α) : Prop :=
  match reading with
  | .done found rest => ∃ value, result = .ok value ∧ agrees found rest value
  | .short => result = .error (.cursor .eof)
  | .failed fault => result = .error fault

/-- What follows, step by step. -/
theorem Follows.bind {mid : β → Bytes → α → Prop} {agrees : δ → Bytes → γ → Prop}
    {next : β → Reader MpFault δ} {further : α → Except MpFault γ}
    (first : Follows mid reading result)
    (rest : ∀ found rest value, mid found rest value →
      Follows agrees (next found rest) (further value)) :
    Follows agrees (Reader.andThen reading next) (result >>= further) := by
  cases reading with
  | done found after =>
      obtain ⟨value, rfl, agree⟩ := first
      exact rest found after value agree
  | short =>
      have same : result = .error (.cursor .eof) := first
      rw [same]
      rfl
  | failed fault =>
      have same : result = .error fault := first
      rw [same]
      rfl

/-- What was returned agrees with something that was read. -/
theorem Follows.of_ok {agrees : β → Bytes → α → Prop} {value : α}
    (follows : Follows agrees reading result) (returned : result = .ok value) :
    ∃ found rest, reading = .done found rest ∧ agrees found rest value := by
  cases reading with
  | done found rest =>
      obtain ⟨other, same, agree⟩ := follows
      rw [returned] at same
      cases same
      exact ⟨found, rest, rfl, agree⟩
  | short =>
      rw [show result = .error (.cursor .eof) from follows] at returned
      cases returned
  | failed fault =>
      rw [show result = .error fault from follows] at returned
      cases returned

/-- What was read is wrapped up. -/
theorem Follows.map {mid : β → Bytes → α → Prop} {agrees : δ → Bytes → α → Prop} {wrap : β → δ}
    (follows : Follows mid reading result)
    (wrapped : ∀ found rest value, mid found rest value → agrees (wrap found) rest value) :
    Follows agrees (Reader.andThen reading fun found => pure (wrap found)) result := by
  cases reading with
  | done found rest =>
      obtain ⟨value, same, agree⟩ := follows
      exact ⟨value, same, wrapped _ _ _ agree⟩
  | short => exact follows
  | failed fault => exact follows

end Following

/-- The cursor has this left of its string. -/
structure MpCur.At (c : MpCur) (s rest : Bytes) : Prop where
  string : c.s = s
  left : c.left = rest.length
  drop : c.s.drop c.p = rest
  inside : c.p ≤ c.s.length
  small : c.s.length < 2 ^ 64

section Cursor

variable {c : MpCur} {s rest : Bytes}

theorem MpCur.At.consume (front : Bytes) (place : c.At s (front ++ rest)) :
    (mpCurConsume c front.length).At s rest where
  string := place.string
  left := by
    have left := place.left
    have drop := congrArg List.length place.drop
    have small := place.small
    rw [List.length_append] at left
    rw [List.length_drop, List.length_append] at drop
    simp only [mpCurConsume]
    omega
  drop := by
    simp only [mpCurConsume]
    rw [← List.drop_drop, place.drop, List.drop_left]
  inside := by
    have drop := congrArg List.length place.drop
    have inside := place.inside
    rw [List.length_drop, List.length_append] at drop
    simp only [mpCurConsume]
    omega
  small := place.small

/-- A text that is needed and read lies behind what was seen of the input. -/
theorem MpCur.At.text (front : Bytes) (place : c.At s (front ++ rest)) (l : Nat) :
    Follows (fun text after found => found = text ∧ text.length = l ∧ rest = text ++ after)
      (Reader.take l rest)
      (mpCurNeed c (front.length + l) >>= fun _ => c.read front.length l) := by
  have left := place.left
  have drop := congrArg List.length place.drop
  have inside := place.inside
  rw [List.length_append] at left
  rw [List.length_drop, List.length_append] at drop
  rw [Reader.take, mpCurNeed]
  by_cases missing : rest.length < l
  · rw [if_pos missing, if_pos (by omega)]
    rfl
  · have range : c.s.loadRange (c.p + front.length : Nat) l =
        some ((c.s.drop (c.p + front.length)).take l) := Block.loadRange_of_le (by omega)
    rw [← List.drop_drop, place.drop, List.drop_left] at range
    rw [if_neg missing, if_neg (by omega)]
    refine ⟨rest.take l, ?_, rfl, ?_, (List.take_append_drop ..).symm⟩
    · change c.read front.length l = _
      rw [MpCur.read, range]
    · rw [List.length_take]
      omega

/-- The number behind the first byte. -/
theorem MpCur.At.count {tag : UInt8} (place : c.At s (tag :: rest)) (width : Nat) :
    Follows (fun n after found => found = n ∧ ∃ digits, digits.length = width ∧
        rest = digits ++ after) (readNumber width rest) (c.count width) := by
  rw [readNumber, Reader.bind_apply, MpCur.count, ← bind_assoc]
  apply (place.text [tag] width).bind
  rintro digits after found ⟨rfl, length, same⟩
  exact ⟨_, rfl, rfl, found, length, same⟩

end Cursor

/-- What was decoded shows the tree on fresh tables. -/
structure Built (heap : Heap) (s : Bytes) (tree : MpTree) (rest : Bytes) (decoded : MpDecoded) : Prop where
  place : decoded.c.At s rest
  later : heap.Extends none decoded.heap
  shows : Shows decoded.heap.cells tree heap.next decoded.heap.next decoded.value

/-- The decoder does what the reader says. -/
def Decodes (reader : Reader MpFault MpTree)
    (decode : Heap → MpCur → Except MpFault MpDecoded) : Prop :=
  ∀ heap c s rest, c.At s rest → Follows (Built heap s) (reader rest) (decode heap c)

/-- A loop filled the table at `addr`. -/
def Filled {β : Type} (addr : Addr) (heap : Heap) (s : Bytes)
    (shows : (Addr → Table) → List β → Addr → Addr → List (Value × Value) → Prop)
    (trees : List β) (rest : Bytes) (result : Heap × MpCur) : Prop :=
  result.2.At s rest ∧ ∃ fields, Fill addr fields heap result.1 ∧
    shows result.1.cells trees heap.next result.1.next fields

section Loops

variable {heap : Heap} {addr : Addr} {c : MpCur} {s rest : Bytes}
  {key value : Reader MpFault MpTree}
  {decodeKey decodeValue : Heap → MpCur → Except MpFault MpDecoded}

theorem mpSetTable_bare {left right : Value} (bare : (heap.cells addr).metatable = none) :
    mpSetTable heap addr left right =
      if left.storable then .ok (heap.write addr ((heap.cells addr).rawSet left right))
      else .error (.stop (.raised (bytes
        (if left.isNil then "table index is nil" else "table index is NaN")))) := by
  rw [mpSetTable, Heap.newIndex_of_no_metatable _ bare]

/-- The loop of an array follows the reader of the elements. -/
theorem follows_mpDecodeElements (decodes : Decodes value decodeValue) (len index : Nat)
    (place : c.At s rest) (bare : (heap.cells addr).metatable = none) (present : addr < heap.next) :
    Follows (Filled addr heap s fun cells trees first last fields => ∃ values,
        fields = arrayFields index values ∧ ShowsAll cells trees first last values)
      (value.repeated len rest) (mpDecodeElements decodeValue addr len index heap c) := by
  induction len generalizing index heap c rest with
  | zero => exact ⟨_, rfl, place, [], .nil addr heap, [], rfl, rfl, rfl⟩
  | succ len inductionHypothesis =>
      apply (decodes heap c s rest place).bind
      rintro tree after decoded ⟨place, later, shows⟩
      have bare' : (decoded.heap.cells addr).metatable = none := by
        rw [later.cells addr present (by simp), bare]
      rw [mpSetTable_bare bare', if_pos (by simp)]
      let stored := (decoded.heap.cells addr).rawSet (.number (.finite index)) decoded.value
      have still : ((decoded.heap.write addr stored).cells addr).metatable = none := by
        simpa [stored] using bare'
      apply (inductionHypothesis (index + 1) place still (present.trans_le later.next)).map
      rintro trees after ⟨new, c⟩ ⟨place, fields, fill, values, rfl, all⟩
      obtain ⟨filled, agree⟩ := Fill.cons later present fill
      exact ⟨place, _, filled, decoded.value :: values, rfl, decoded.value, values,
        decoded.heap.next, rfl, shows.frame agree, all⟩

/-- The loop of a map follows the reader of the entries. -/
theorem follows_mpDecodeEntries (keys : Decodes key decodeKey) (values : Decodes value decodeValue)
    (len : Nat) (place : c.At s rest) (bare : (heap.cells addr).metatable = none)
    (present : addr < heap.next) :
    Follows (Filled addr heap s ShowsEntries) ((readEntry key value).repeated len rest)
      (mpDecodeEntries decodeKey decodeValue addr len heap c) := by
  induction len generalizing heap c rest with
  | zero => exact ⟨_, rfl, place, [], .nil addr heap, rfl, rfl⟩
  | succ len inductionHypothesis =>
      rw [Reader.repeated, readEntry, Reader.bind_apply, Reader.bind_apply, Reader.andThen_andThen]
      apply (keys heap c s rest place).bind
      rintro left between first ⟨place, early, showsKey⟩
      rw [Reader.bind_apply, Reader.bind_apply, Reader.andThen_andThen]
      apply (values first.heap first.c s between place).bind
      rintro right after second ⟨place, late, showsValue⟩
      have later := early.trans late
      have bare' : (second.heap.cells addr).metatable = none := by
        rw [later.cells addr present (by simp), bare]
      rw [mpSetTable_bare bare']
      rcases showsKey.key with ⟨sound, storable⟩ | ⟨fault, unsound, unstorable, message⟩
      · rw [if_pos storable, sound]
        let stored := (second.heap.cells addr).rawSet first.value second.value
        have still : ((second.heap.write addr stored).cells addr).metatable = none := by
          simpa [stored] using bare'
        apply (inductionHypothesis place still (present.trans_le later.next)).map
        rintro trees after ⟨new, c⟩ ⟨place, fields, fill, all⟩
        obtain ⟨filled, agree⟩ := Fill.cons later present fill
        have keyAgree := (agree.sub (Nat.le_refl _) late.next)
        have unchanged : AgreeOn first.heap.cells second.heap.cells heap.next first.heap.next :=
          fun other _ below => late.cells other below (by simp)
        exact ⟨place, _, filled, first.value, second.value, fields, first.heap.next,
          second.heap.next, rfl, (showsKey.frame unchanged).frame keyAgree,
          showsValue.frame (agree.sub early.next (Nat.le_refl _)), all⟩
      · rw [if_neg (by simp [unstorable]), unsound, message]
        rfl

/-- `mp_decode_to_lua_array` makes the table of a list. -/
theorem follows_mpDecodeToLuaArray (decodes : Decodes value decodeValue) (room len : Nat)
    (place : c.At s rest) : Follows (Built heap s) (readList value room len rest)
      (mpDecodeToLuaArray decodeValue room len heap c) := by
  rw [readList, mpDecodeToLuaArray]
  split
  · rfl
  · have bare : ((heap.alloc .empty).cells heap.next).metatable = none := by simp
    have elements := follows_mpDecodeElements decodes len 1 place bare (Nat.lt_succ_self _)
    rw [Reader.bind_apply]
    apply elements.bind
    rintro trees after ⟨new, c⟩ ⟨place, fields, fill, values, rfl, all⟩
    refine ⟨_, rfl, place, ?_, rfl, values, ?_, all⟩
    · exact (Heap.Extends.refl heap).alloc .empty |>.trans_new fill.later (Nat.le_refl _)
    · have table := fill.table
      rwa [Heap.alloc_self, Table.empty_store] at table

/-- `mp_decode_to_lua_hash` makes the table of a record. -/
theorem follows_mpDecodeToLuaHash (keys : Decodes key decodeKey) (values : Decodes value decodeValue)
    (len : Nat) (place : c.At s rest) : Follows (Built heap s) (readRecord key value len rest)
      (mpDecodeToLuaHash decodeKey decodeValue len heap c) := by
  have bare : ((heap.alloc .empty).cells heap.next).metatable = none := by simp
  have entries := follows_mpDecodeEntries keys values len place bare (Nat.lt_succ_self _)
  rw [readRecord, mpDecodeToLuaHash, Reader.bind_apply]
  apply entries.bind
  rintro trees after ⟨new, c⟩ ⟨place, fields, fill, all⟩
  refine ⟨_, rfl, place, ?_, rfl, fields, ?_, all⟩
  · exact (Heap.Extends.refl heap).alloc .empty |>.trans_new fill.later (Nat.le_refl _)
  · have table := fill.table
    rwa [Heap.alloc_self, Table.empty_store] at table

end Loops

section Heads

variable {heap : Heap} {c : MpCur} {s rest : Bytes} {key value : Reader MpFault MpTree}
  {decodeKey decodeValue : Heap → MpCur → Except MpFault MpDecoded}

/-- A value without tables. -/
theorem built_scalar {tree : MpTree} {value : Value} (place : c.At s rest)
    (shows : Shows heap.cells tree heap.next heap.next value) :
    Built heap s tree rest ⟨value, heap, c⟩ := ⟨place, .refl heap, shows⟩

/-- A number of so many bytes, and what is made of it. -/
theorem MpCur.At.number {tag : UInt8} (place : c.At s (tag :: rest)) (width : Nat)
    (tree : Nat → MpTree) (given : Nat → Value)
    (shows : ∀ n, Shows heap.cells (tree n) heap.next heap.next (given n)) :
    Follows (Built heap s) (Reader.andThen (readNumber width rest) fun n => pure (tree n))
      (c.count width >>= fun n => .ok ⟨given n, heap, mpCurConsume c (1 + width)⟩) := by
  apply (place.count width).bind
  rintro n after found ⟨rfl, digits, length, rfl⟩
  have next : (mpCurConsume c (tag :: digits).length).At s after := place.consume (tag :: digits)
  rw [List.length_cons, length, Nat.add_comm] at next
  exact ⟨_, rfl, built_scalar next (shows found)⟩

/-- A text behind the first bytes. -/
theorem MpCur.At.raw (heap : Heap) (front : Bytes) (place : c.At s (front ++ rest)) (l : Nat) :
    Follows (Built heap s) (Reader.andThen (Reader.take l rest) fun text => pure (.string text))
      (mpCurNeed c (front.length + l) >>= fun _ => c.read front.length l >>= fun text =>
        .ok ⟨.string text, heap, mpCurConsume c (front.length + l)⟩) := by
  rw [← bind_assoc]
  apply (place.text front l).bind
  rintro text after found ⟨rfl, length, rfl⟩
  rw [← List.append_assoc] at place
  have next := place.consume (front ++ found)
  rw [List.length_append, length] at next
  exact ⟨_, rfl, built_scalar next ⟨rfl, rfl⟩⟩

/-- Each branch of the switch follows the reader. -/
theorem follows_mpDecodeHead (keys : Decodes key decodeKey) (values : Decodes value decodeValue)
    (room : Nat) {tag : UInt8} (place : c.At s (tag :: rest)) (head : MpHead) :
    Follows (Built heap s) (readHead key value room head rest)
      (mpDecodeHead decodeKey decodeValue room heap c head) := by
  have next : (mpCurConsume c 1).At s rest := place.consume [tag]
  cases head with
  | integer n => exact ⟨_, rfl, built_scalar next ⟨rfl, rfl⟩⟩
  | unsigned width => exact place.number width _ _ fun n => ⟨rfl, rfl⟩
  | signed width => exact place.number width _ _ fun n => ⟨rfl, rfl⟩
  | nil => exact ⟨_, rfl, built_scalar next ⟨rfl, rfl⟩⟩
  | boolean flag => exact ⟨_, rfl, built_scalar next ⟨rfl, rfl⟩⟩
  | float => exact place.number 4 _ _ fun n => ⟨rfl, rfl⟩
  | double => exact place.number 8 _ _ fun n => ⟨rfl, rfl⟩
  | fixRaw l => exact place.raw heap [tag] l
  | raw width =>
      apply (place.count width).bind
      rintro l after found ⟨rfl, digits, length, rfl⟩
      have text := place.raw heap (tag :: digits) found
      rwa [List.length_cons, length, Nat.add_comm width] at text
  | raw32 =>
      apply (place.count 4).bind
      rintro l after found ⟨rfl, digits, length, rfl⟩
      have next : (mpCurConsume c (tag :: digits).length).At s after := place.consume (tag :: digits)
      rw [List.length_cons, length] at next
      have text := next.raw heap [] found
      rwa [List.length_nil, Nat.zero_add] at text
  | fixArray l => exact follows_mpDecodeToLuaArray values room l next
  | array width =>
      apply (place.count width).bind
      rintro l after found ⟨rfl, digits, length, rfl⟩
      have next : (mpCurConsume c (tag :: digits).length).At s after := place.consume (tag :: digits)
      rw [List.length_cons, length, Nat.add_comm] at next
      exact follows_mpDecodeToLuaArray values room found next
  | fixMap l => exact follows_mpDecodeToLuaHash keys values l next
  | map width =>
      apply (place.count width).bind
      rintro l after found ⟨rfl, digits, length, rfl⟩
      have next : (mpCurConsume c (tag :: digits).length).At s after := place.consume (tag :: digits)
      rw [List.length_cons, length, Nat.add_comm] at next
      exact follows_mpDecodeToLuaHash keys values found next
  | unknown => rfl

/-- So does the whole, if what is used for keys and for elements does. -/
theorem follows_mpDecodeWith (room : Nat) (keys : 0 < room → Decodes key decodeKey)
    (values : 0 < room → Decodes value decodeValue) :
    Decodes (readWith key value room) (mpDecodeWith decodeKey decodeValue room) := by
  intro heap c s rest place
  have left := place.left
  rw [readWith, mpDecodeWith, mpCurNeed, Reader.bind_apply]
  cases rest with
  | nil =>
      rw [List.length_nil] at left
      rw [if_pos (by omega)]
      rfl
  | cons tag rest =>
      rw [List.length_cons] at left
      rw [if_neg (by omega), Reader.byte_cons, Reader.andThen_done]
      have first : c.s.load c.p = some tag := by
        have split := List.take_append_drop c.p c.s
        have front : (c.s.take c.p).length = c.p := by
          have inside := place.inside
          rw [List.length_take]
          omega
        rw [place.drop] at split
        have found := Block.load_append (c.s.take c.p) rest tag
        rwa [split, front] at found
      change Follows (Built heap s) _ (if room < 1 then _ else _)
      by_cases full : room < 1
      · rw [if_pos full, if_pos full]
        rfl
      · rw [if_neg full, if_neg full, first]
        exact follows_mpDecodeHead (keys (by omega)) (values (by omega)) room place (mpHead tag)

/-- On every input the decoder does what the reader says. -/
theorem decodes_mpDecodeToLuaType (room : Nat) :
    Decodes (readItem room) (mpDecodeToLuaType room) := by
  induction room using readItem.induct with
  | case1 =>
      exact follows_mpDecodeWith 0 (fun some => absurd some (Nat.lt_irrefl 0)) fun some =>
        absurd some (Nat.lt_irrefl 0)
  | case2 empty => exact follows_mpDecodeWith 1 (fun _ => empty) fun _ => empty
  | case3 room keys values => exact follows_mpDecodeWith (room + 2) (fun _ => keys) fun _ => values

end Heads

end ValkeyLuajit
