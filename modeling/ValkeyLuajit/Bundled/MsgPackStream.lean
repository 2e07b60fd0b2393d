import ValkeyLuajit.Bundled.MsgPackRoundTrip

/-!
# Streams of MessagePack values

`mp_unpack_full` reads values one after the other. What it does is read off the reader, for
every input, offset and limit. What was packed is unpacked again, a cut is noticed, and reading
in parts is like reading at once.
-/

namespace ValkeyLuajit

open Lua

section Rules

variable {good : MpFault → Prop} {property : ∀ {α : Type}, Reader MpFault α → Prop}
  {key value : Reader MpFault MpTree} {room : Nat}

theorem closed_readList (closed : Reader.Closed good property)
    (raised : ∀ message, good (.stop (.raised message))) (values : property value) (len : Nat) :
    property (readList value room len) := by
  unfold readList
  split
  · exact closed.fail _ (raised _)
  · exact closed.bind (closed.repeated values len) fun elements => closed.pure _

theorem closed_readRecord (closed : Reader.Closed good property)
    (raised : ∀ message, good (.stop (.raised message))) (keys : property key)
    (values : property value) (len : Nat) : property (readRecord key value len) := by
  refine closed.bind (closed.repeated (closed.bind keys fun left =>
    closed.bind values fun right => ?_) len) fun entries => closed.pure _
  cases left with
  | nil => exact closed.fail _ (raised _)
  | number n =>
      cases n with
      | nan => exact closed.fail _ (raised _)
      | _ => exact closed.pure _
  | _ => exact closed.pure _

theorem closed_readHead (closed : Reader.Closed good property) (badfmt : good (.cursor .badfmt))
    (raised : ∀ message, good (.stop (.raised message))) (keys : property key)
    (values : property value) (head : MpHead) : property (readHead key value room head) := by
  have number (width : Nat) : property (readNumber width) :=
    closed.bind (closed.take width) fun digits => closed.pure _
  have text (l : Nat) : property (do
      let text ← Reader.take l
      pure (MpTree.string text)) := closed.bind (closed.take l) fun text => closed.pure _
  cases head with
  | integer n => exact closed.pure _
  | unsigned width | signed width => exact closed.bind (number width) fun n => closed.pure _
  | nil | boolean flag => exact closed.pure _
  | float => exact closed.bind (number 4) fun f => closed.pure _
  | double => exact closed.bind (number 8) fun d => closed.pure _
  | fixRaw l => exact text l
  | raw width => exact closed.bind (number width) fun l => text l
  | raw32 => exact closed.bind (number 4) fun l => text l
  | fixArray l => exact closed_readList closed raised values l
  | array width => exact closed.bind (number width) fun l => closed_readList closed raised values l
  | fixMap l => exact closed_readRecord closed raised keys values l
  | map width =>
      exact closed.bind (number width) fun l => closed_readRecord closed raised keys values l
  | unknown => exact closed.fail _ badfmt

theorem closed_readWith (closed : Reader.Closed good property) (badfmt : good (.cursor .badfmt))
    (raised : ∀ message, good (.stop (.raised message))) (keys : 0 < room → property key)
    (values : 0 < room → property value) : property (readWith key value room) := by
  refine closed.bind closed.byte fun tag => ?_
  split
  · exact closed.fail _ (raised _)
  · rename_i some
    exact closed_readHead closed badfmt raised (keys (by omega)) (values (by omega)) _

/-- The reader of trees has every property that readers of bytes, texts and errors have. -/
theorem closed_readItem (closed : Reader.Closed good property) (badfmt : good (.cursor .badfmt))
    (raised : ∀ message, good (.stop (.raised message))) (room : Nat) :
    property (readItem room) := by
  induction room using readItem.induct with
  | case1 =>
      exact closed_readWith closed badfmt raised (fun some => absurd some (Nat.lt_irrefl 0))
        fun some => absurd some (Nat.lt_irrefl 0)
  | case2 empty => exact closed_readWith closed badfmt raised (fun _ => empty) fun _ => empty
  | case3 room keys values =>
      exact closed_readWith closed badfmt raised (fun _ => keys) fun _ => values

theorem stable_readItem (room : Nat) : Reader.Stable (readItem room) :=
  closed_readItem Reader.closed_stable trivial (fun _ => trivial) room

end Rules

/-- What the loop of `mp_unpack_full` reads: values up to the end of the input or the limit. -/
def readStream (limit : Int) : (room cnt : Nat) → Bytes → Reading MpFault (List MpTree)
  | 0, cnt, input =>
      if 0 < input.length ∧ cnt < limit then .failed (.stop (stackOverflow tooManyValues))
      else .done [] input
  | room + 1, cnt, input =>
      if 0 < input.length ∧ cnt < limit then
        Reader.andThen (readItem (room + 1) input) fun tree rest =>
          Reader.andThen (readStream limit room (cnt + 1) rest) fun trees => pure (tree :: trees)
      else .done [] input

/-- What was unpacked shows the trees on fresh tables. -/
structure Unpacks (heap : Heap) (s : Bytes) (trees : List MpTree) (rest : Bytes)
    (unpacked : MpUnpacked) : Prop where
  place : unpacked.c.At s rest
  later : heap.Extends none unpacked.heap
  shows : ShowsAll unpacked.heap.cells trees heap.next unpacked.heap.next unpacked.values

section Loop

variable {limit : Int} {heap : Heap} {c : MpCur} {s rest : Bytes}

/-- On a full stack nothing is decoded. -/
theorem mpDecodeToLuaType_zero (some : 0 < c.left) :
    mpDecodeToLuaType 0 heap c = .error (.stop (stackOverflow tooManyValues)) := by
  rw [mpDecodeToLuaType, mpDecodeWith, mpCurNeed, if_neg (by omega)]
  rfl

/-- The loop follows the reader. -/
theorem follows_mpUnpackLoop (room cnt : Nat) (place : c.At s rest) :
    Follows (Unpacks heap s) (readStream limit room cnt rest)
      (mpUnpackLoop limit room cnt heap c) := by
  induction room generalizing cnt heap c rest with
  | zero =>
      rw [readStream, mpUnpackLoop, place.left]
      split
      · rename_i more
        rw [mpDecodeToLuaType_zero (by rw [place.left]; exact more.1)]
        rfl
      · exact ⟨_, rfl, place, .refl heap, rfl, rfl⟩
  | succ room inductionHypothesis =>
      rw [readStream, mpUnpackLoop, place.left]
      split
      · apply (decodes_mpDecodeToLuaType (room + 1) heap c s rest place).bind
        rintro tree after decoded ⟨place, later, shows⟩
        apply (inductionHypothesis (cnt + 1) place).bind
        rintro trees after unpacked ⟨place, further, all⟩
        have agree : AgreeOn decoded.heap.cells unpacked.heap.cells heap.next decoded.heap.next :=
          fun addr _ below => further.cells addr below (by simp)
        exact ⟨_, rfl, place, later.trans further, _, _, _, rfl, shows.frame agree, all⟩
      · exact ⟨_, rfl, place, .refl heap, rfl, rfl⟩

end Loop

/-- The place before the first value. -/
theorem MpCur.At.start {s : Bytes} (small : s.length < 2 ^ 64) {offset : Nat}
    (inside : offset ≤ s.length) : MpCur.At ⟨s, offset, s.length - offset⟩ s (s.drop offset) where
  string := rfl
  left := by simp
  drop := rfl
  inside := inside
  small := small

section Packed

variable {host : MpHost} {source heap : Heap} {limit : Int} {levels : Nat}

theorem bytes_ne_nil {tree : MpTree} (sound : tree.Sound levels) : tree.bytes host ≠ [] := by
  intro empty
  have read : readItem (2 * levels + 1) (tree.bytes host ++ []) = .done tree [] :=
    readItem_bytes sound (Nat.lt_succ_self _) []
  have short : readItem (2 * levels + 1) [] = .short := by
    rw [readItem_eq]
    rfl
  rw [empty, List.append_nil, short] at read
  cases read

/-- Values that were said are read first, whatever follows them. -/
theorem readStream_append {trees : List MpTree} (sound : ∀ tree ∈ trees, tree.Sound levels)
    {room cnt : Nat} (enough : trees.length + 2 * levels ≤ room)
    (more : (cnt : Int) + trees.length ≤ limit) (tail : Bytes) :
    readStream limit room cnt (trees.flatMap (MpTree.bytes host) ++ tail) =
      Reader.andThen (readStream limit (room - trees.length) (cnt + trees.length) tail)
        fun others => pure (trees ++ others) := by
  induction trees generalizing room cnt with
  | nil =>
      rw [List.flatMap_nil, List.nil_append, List.length_nil, Nat.sub_zero, Nat.add_zero]
      cases readStream limit room cnt tail <;> rfl
  | cons tree trees inductionHypothesis =>
      rw [List.length_cons] at enough more ⊢
      obtain ⟨room, rfl⟩ := Nat.exists_eq_add_of_le' (show 1 ≤ room by omega)
      have here := sound tree List.mem_cons_self
      have first : readItem (room + 1)
          (tree.bytes host ++ (trees.flatMap (MpTree.bytes host) ++ tail)) =
            .done tree (trees.flatMap (MpTree.bytes host) ++ tail) :=
        readItem_bytes here (by omega) _
      have rest := inductionHypothesis
        (fun other member => sound other (List.mem_cons_of_mem _ member))
        (show trees.length + 2 * levels ≤ room by omega)
        (show ((cnt + 1 : Nat) : Int) + trees.length ≤ limit by omega)
      have some : 0 < (tree.bytes host ++ (trees.flatMap (MpTree.bytes host) ++ tail)).length := by
        rw [List.length_append]
        exact Nat.add_pos_left (List.length_pos_iff.mpr (bytes_ne_nil here)) _
      rw [List.flatMap_cons, List.append_assoc, readStream, if_pos ⟨some, by omega⟩, first]
      dsimp only [Reader.andThen]
      rw [rest, Nat.add_sub_add_right, Nat.add_assoc, Nat.add_comm 1]
      cases readStream limit (room - trees.length) (cnt + (trees.length + 1)) tail <;> rfl

theorem readStream_nil (room cnt : Nat) : readStream limit room cnt [] = .done [] [] := by
  cases room <;> rw [readStream, if_neg (by simp)]

/-- The answer of `unpack` to what was read: values that show it, or its error. -/
def Answers (heap : Heap) (reading : Reading MpFault (List MpTree))
    (answer : Except MpStop (List Value × Heap)) : Prop :=
  match reading with
  | .done trees _ => ∃ values after, answer = .ok (values, after) ∧
      heap.Extends none after ∧ ShowsAll after.cells trees heap.next after.next values
  | .short => answer = .error (.raised (bytes "Missing bytes in input."))
  | .failed fault => answer = .error fault.reason

/-- `unpack` is the loop over the whole string. -/
theorem mpUnpack_answers (heap : Heap) {s : Bytes} (small : s.length < 2 ^ 64) (others : Nat) :
    Answers heap (readStream intMax (maxCStack - (1 + others)) 0 s) (mpUnpack s heap others) := by
  have unfolded : mpUnpack s heap others =
      (mpUnpackLoop intMax (maxCStack - (1 + others)) 0 heap ⟨s, 0, s.length⟩).mapError
        MpFault.reason >>= fun unpacked => .ok (unpacked.values, unpacked.heap) := by
    simp only [mpUnpack, mpUnpackFull, lt_self_iff_false, or_self, if_false, and_self, if_true,
      not_lt.mpr (Int.natCast_nonneg s.length)]
    rfl
  have follows : Follows (Unpacks heap s) (readStream intMax (maxCStack - (1 + others)) 0 s)
      (mpUnpackLoop intMax (maxCStack - (1 + others)) 0 heap ⟨s, 0, s.length⟩) :=
    follows_mpUnpackLoop _ 0 (MpCur.At.start small (Nat.zero_le _))
  rw [unfolded]
  cases read : readStream intMax (maxCStack - (1 + others)) 0 s with
  | done trees rest =>
      rw [read] at follows
      obtain ⟨unpacked, run, ⟨-, later, shows⟩⟩ := follows
      rw [run]
      exact ⟨unpacked.values, unpacked.heap, rfl, later, shows⟩
  | short =>
      rw [read] at follows
      rw [show mpUnpackLoop intMax _ 0 heap _ = _ from follows]
      rfl
  | failed fault =>
      rw [read] at follows
      rw [show mpUnpackLoop intMax _ 0 heap _ = _ from follows]
      rfl

/-- What was packed is unpacked again, whoever does it: the values show, on fresh tables, what
was said about the arguments. -/
theorem mpUnpack_mpPack {args : List Value} (some : args ≠ []) {others : Nat}
    (packs : args.length + args.length + 3 * maxNesting ≤ maxCStack)
    (unpacks : args.length + 2 * maxNesting + 1 + others ≤ maxCStack)
    (sound : ∀ argument ∈ args, (MpTree.ofValue source maxNesting argument).Sound maxNesting)
    (short : (packedBytes host source args).flatten.length < sizeMax / 2) :
    ∃ text values after, mpPack host source args = .ok text ∧
      mpUnpack text heap others = .ok (values, after) ∧ heap.Extends none after ∧
      ShowsAll after.cells (args.map (MpTree.ofValue source maxNesting)) heap.next after.next
        values := by
  have pieces (text : Bytes) (member : text ∈ packedBytes host source args) :
      text.length < sizeMax / 2 :=
    (List.Sublist.length_le (List.sublist_flatten_of_mem member)).trans_lt short
  obtain ⟨buf, run⟩ := mpPackArguments_eq args mpBufNew_holds packs pieces
  have packed : mpPack host source args = .ok (packedBytes host source args).flatten := by
    rw [mpPack, if_neg some, if_neg (by omega), run]
    rfl
  let trees := args.map (MpTree.ofValue source maxNesting)
  have whole : (packedBytes host source args).flatten =
      trees.flatMap (MpTree.bytes host) ++ [] := by
    rw [List.append_nil, List.flatMap_def, List.map_map]
    rfl
  have size : trees.length = args.length := List.length_map _
  have each : ∀ tree ∈ trees, tree.Sound maxNesting := by simpa [trees] using sound
  have few : ((0 : Nat) : Int) + trees.length ≤ intMax := by
    simp only [maxCStack, intMax] at unpacks ⊢
    omega
  have read : readStream intMax (maxCStack - (1 + others)) 0
      (trees.flatMap (MpTree.bytes host) ++ []) = _ :=
    readStream_append each (by omega) few []
  rw [← whole, readStream_nil] at read
  have small : (packedBytes host source args).flatten.length < 2 ^ 64 := by
    rw [sizeMax] at short
    omega
  have spec := mpUnpack_answers heap small others
  rw [read] at spec
  obtain ⟨values, after, run, later, shows⟩ := spec
  exact ⟨_, values, after, packed, run, later, by simpa [trees] using shows⟩

/-- When a packed value is cut, all that is before it is read, and then bytes are missing. -/
theorem mpUnpack_cut {args : List Value} {argument : Value} {front back : Bytes} {others : Nat}
    (sound : ∀ other ∈ args ++ [argument], (MpTree.ofValue source maxNesting other).Sound maxNesting)
    (cut : (MpTree.ofValue source maxNesting argument).bytes host = front ++ back)
    (started : front ≠ []) (missing : back ≠ [])
    (unpacks : args.length + 2 * maxNesting + 2 + others ≤ maxCStack)
    (short : ((packedBytes host source args).flatten ++ front).length < 2 ^ 64) :
    mpUnpack ((packedBytes host source args).flatten ++ front) heap others =
      .error (.raised (bytes "Missing bytes in input.")) := by
  let trees := args.map (MpTree.ofValue source maxNesting)
  have whole : (packedBytes host source args).flatten = trees.flatMap (MpTree.bytes host) := by
    rw [List.flatMap_def, List.map_map]
    rfl
  have size : trees.length = args.length := List.length_map _
  have each : ∀ tree ∈ trees, tree.Sound maxNesting := by
    simpa [trees] using fun other member => sound other (List.mem_append_left _ member)
  have few : ((0 : Nat) : Int) + trees.length < intMax := by
    simp only [maxCStack, intMax] at unpacks ⊢
    omega
  have read : readStream intMax (maxCStack - (1 + others)) 0
      (trees.flatMap (MpTree.bytes host) ++ front) = _ :=
    readStream_append each (by omega) few.le front
  obtain ⟨room, left⟩ := Nat.exists_eq_add_of_le'
    (show 1 ≤ maxCStack - (1 + others) - trees.length by omega)
  have all : readItem (room + 1) (front ++ back) =
      .done (MpTree.ofValue source maxNesting argument) [] := by
    rw [← cut, ← List.append_nil (MpTree.bytes host _)]
    exact readItem_bytes (sound argument (by simp)) (by omega) []
  have next : readStream intMax (room + 1) (0 + trees.length) front = .short := by
    rw [readStream, if_pos ⟨List.length_pos_iff.mpr started, by omega⟩,
      (stable_readItem _).short_of_cut all missing]
    rfl
  rw [left, next] at read
  rw [whole] at short ⊢
  have spec := mpUnpack_answers heap short others
  rw [read] at spec
  exact spec

end Packed

/-- A heap whose only table is a list with one string. -/
def listHeap : Heap := (default : Heap).alloc (.ofFields [(.number (.finite 1), .string (bytes "a"))])

theorem ofValue_listHeap :
    MpTree.ofValue listHeap maxNesting (.table 0) = .list [.string (bytes "a")] := by
  have sequential : (listHeap.cells 0).Sequential := by decide +kernel
  rw [maxNesting, MpTree.ofValue]
  exact if_pos sequential

/-- A string and a list. -/
theorem mpUnpack_mpPack_list : ∃ text values after,
    mpPack usualHost listHeap [.string (bytes "key"), .table 0] = .ok text ∧
      mpUnpack text default 0 = .ok (values, after) ∧ (default : Heap).Extends none after ∧
      ShowsAll after.cells
        ([.string (bytes "key"), .table 0].map (MpTree.ofValue listHeap maxNesting))
        (default : Heap).next after.next values := by
  apply mpUnpack_mpPack (by simp) (by decide) (by decide)
  · rintro argument member
    simp only [List.mem_cons, List.not_mem_nil, or_false] at member
    rcases member with rfl | rfl
    · show _ < _
      decide
    · rw [ofValue_listHeap]
      exact ⟨by decide, by simp [MpTree.Sound, bytes]⟩
  · decide +kernel

/-- Two strings, and only a part of the second. -/
theorem mpUnpack_cut_string : mpUnpack
    ((packedBytes usualHost default [.string (bytes "first")]).flatten ++ (0xa6 :: bytes "sec"))
    default 0 = .error (.raised (bytes "Missing bytes in input.")) := by
  apply mpUnpack_cut _ (show (MpTree.ofValue default maxNesting (.string (bytes "second"))).bytes
      usualHost = (0xa6 :: bytes "sec") ++ bytes "ond" by decide +kernel) (by simp) (by decide)
    (by decide) (by decide +kernel)
  intro argument member
  simp only [List.mem_append, List.mem_cons, List.not_mem_nil, or_false] at member
  rcases member with rfl | rfl
  · show _ < _
    decide
  · show _ < _
    decide

end ValkeyLuajit
