import ValkeyLuajit.Library.Block
import ValkeyLuajit.Script.Reply

/-!
# Strings that are changed in place

`ljm_strtrim` and `strmapchars` work on the bytes of their arguments, through pointers. A
block holds just the bytes of a string here: an access to any other byte has no result.
-/

namespace ValkeyLuajit

open Lua

namespace InPlace

/-- `strchr`, for which the NUL belongs to the set. -/
def strchr (cset : Bytes) (char : UInt8) : Bool := char ∈ cString cset ++ [0]

section

variable (block : Block) (cset : Bytes)

/-- The first loop of `ljm_strtrim`. -/
def trimLeft (stop : Int) : Nat → Int → Option Int
  | 0, _ => none
  | fuel + 1, sp =>
      if sp ≤ stop then do
        let char ← block.load sp
        if strchr cset char then trimLeft stop fuel (sp + 1) else some sp
      else some sp

/-- The second loop of `ljm_strtrim`. -/
def trimRight (sp : Int) : Nat → Int → Option Int
  | 0, _ => none
  | fuel + 1, ep =>
      if ep > sp then do
        let char ← block.load ep
        if strchr cset char then trimRight sp fuel (ep - 1) else some ep
      else some ep

/-- `ljm_strtrim` of the string at `s`: the block it leaves. A negative difference would be a
length that no block has. -/
def ljmStrtrim (s : Int) : Option Block := do
  let length ← block.strlen s
  let stop := s + length - 1
  let sp ← trimLeft block cset stop (length + 1) s
  let ep ← trimRight block cset sp (length + 1) stop
  let len ← (if 0 ≤ ep - sp + 1 then some (ep - sp + 1).toNat else none)
  let block ← (if s ≠ sp then block.memmove s sp len else some block)
  block.store (s + len) 0

end

section Trimming

variable {cset front text after : Bytes}

/-- No character of a string is the NUL that `strchr` would find. -/
theorem strchr_eq {char : UInt8} (inside : char ≠ 0) :
    strchr cset char = decide (char ∈ cString cset) := by
  simp [strchr, inside]

/-- The first loop passes over the characters of the set. -/
theorem trimLeft_eq {stop : Int} {fuel : Nat} (unbroken : (0 : UInt8) ∉ text)
    (last : stop = front.length + text.length - 1) (enough : text.length < fuel) :
    trimLeft (front ++ (text ++ after)) cset stop fuel front.length =
      some ((front.length + (text.takeWhile (· ∈ cString cset)).length : Nat) : Int) := by
  induction text generalizing front fuel with
  | nil =>
      obtain ⟨fuel, rfl⟩ := Nat.exists_eq_add_one_of_ne_zero (Nat.ne_of_gt enough)
      rw [List.length_nil] at last
      rw [trimLeft, if_neg (by omega)]
      rfl
  | cons char text inductionHypothesis =>
      obtain ⟨fuel, rfl⟩ := Nat.exists_eq_add_one_of_ne_zero (Nat.ne_of_gt (Nat.zero_lt_of_lt enough))
      have inside : char ≠ 0 := fun null => unbroken (null ▸ List.mem_cons_self)
      rw [List.length_cons] at last
      rw [trimLeft, if_pos (by omega), List.cons_append, Block.load_append, Option.bind_eq_bind,
        Option.bind_some, strchr_eq inside]
      by_cases dropped : char ∈ cString cset
      · have next := @inductionHypothesis (front ++ [char]) fuel
          (fun null => unbroken (List.mem_cons_of_mem _ null))
          (by rw [List.length_append, List.length_singleton]; omega)
          (Nat.lt_of_succ_lt_succ enough)
        rw [List.length_append, List.append_assoc, List.singleton_append] at next
        rw [if_pos (by simpa using dropped), List.takeWhile_cons_of_pos (by simpa using dropped)]
        refine next.trans ?_
        rw [List.length_singleton, List.length_cons, Nat.add_assoc, Nat.add_comm 1]
      · rw [if_neg (by simpa using dropped), List.takeWhile_cons_of_neg (by simpa using dropped)]
        rfl

/-- The second loop goes back over the characters of the set, down to one that stays. -/
theorem trimRight_eq {first : UInt8} {fuel : Nat}
    (unbroken : (0 : UInt8) ∉ first :: text) (enough : text.length < fuel) :
    trimRight (front ++ (first :: text ++ after)) cset front.length fuel
        (front.length + text.length : Nat) =
      some ((front.length + (text.rdropWhile (· ∈ cString cset)).length : Nat) : Int) := by
  induction text using List.reverseRecOn generalizing after fuel with
  | nil =>
      obtain ⟨fuel, rfl⟩ := Nat.exists_eq_add_one_of_ne_zero (Nat.ne_of_gt enough)
      rw [trimRight, if_neg (by simp)]
      rfl
  | append_singleton text char inductionHypothesis =>
      obtain ⟨fuel, rfl⟩ := Nat.exists_eq_add_one_of_ne_zero (Nat.ne_of_gt (Nat.zero_lt_of_lt enough))
      have inside : char ≠ 0 := fun null => unbroken (by simp [null])
      have here : front ++ (first :: (text ++ [char]) ++ after) =
          (front ++ first :: text) ++ char :: after := by simp
      have place : ((front.length + (text ++ [char]).length : Nat) : Int) =
          ((front ++ first :: text).length : Nat) := by simp
      have more : ((front ++ first :: text).length : Int) > front.length := by
        rw [List.length_append, List.length_cons]
        omega
      rw [here, place, trimRight, if_pos more, Block.load_append, Option.bind_eq_bind,
        Option.bind_some, strchr_eq inside, List.rdropWhile_concat]
      by_cases dropped : char ∈ cString cset
      · have next := @inductionHypothesis (char :: after) fuel
          (fun null => unbroken (by simp at null ⊢; tauto))
          (Nat.lt_of_succ_lt_succ (by simpa using enough))
        have back : (((front ++ first :: text).length : Nat) : Int) - 1 =
            (front.length + text.length : Nat) := by
          rw [List.length_append, List.length_cons]
          omega
        rw [if_pos (by simpa using dropped), if_pos (by simpa using dropped), back, ← next]
        simp
      · rw [if_neg (by simpa using dropped), if_neg (by simpa using dropped)]
        simp

/-- The text between the two ends goes to the start of the block, and a NUL behind it. -/
theorem moved_eq {front kept after : Bytes} :
    (do
      let block ← (if (0 : Int) ≠ front.length then
        Block.memmove (front ++ (kept ++ after)) 0 front.length kept.length
        else some (front ++ (kept ++ after)))
      block.store (0 + kept.length) 0) =
    Block.store (kept ++ (front ++ (kept ++ after)).drop kept.length) kept.length 0 := by
  rw [Int.zero_add]
  by_cases start : front = []
  · subst start
    simp
  · have apart : (0 : Int) ≠ front.length := by
      have := List.length_pos_iff.mpr start
      omega
    rw [if_pos apart, Block.memmove_to_start]
    rfl

end Trimming

/-- The string between two places of a block that holds it and at least one byte more. -/
theorem moved_string {front kept after : Bytes} (unbroken : (0 : UInt8) ∉ kept)
    (more : after ≠ []) :
    ∃ result, Block.store (kept ++ (front ++ (kept ++ after)).drop kept.length) kept.length 0 =
        some result ∧ result.string 0 = some kept := by
  have room : (front ++ (kept ++ after)).drop kept.length ≠ [] := by
    have := List.length_pos_iff.mpr more
    rw [← List.length_pos_iff]
    simp
    omega
  obtain ⟨old, rest, parts⟩ := List.exists_cons_of_ne_nil room
  refine ⟨kept ++ 0 :: rest, ?_, Block.Holds.string_eq ⟨unbroken, rest, rfl⟩⟩
  rw [parts, Block.store_append]

/-- Started at the end of a text whose first character stays, the second loop stops behind
what is left of it; it does not start on an empty one. -/
theorem trimRight_stops {stop : Int} {fuel : Nat} (unbroken : (0 : UInt8) ∉ text)
    (stays : ∀ char, text.head? = some char → char ∉ cString cset)
    (last : stop = front.length + text.length - 1) (enough : text.length < fuel) :
    trimRight (front ++ (text ++ after)) cset front.length fuel stop =
      some ((front.length : Int) + (text.rdropWhile (· ∈ cString cset)).length - 1) := by
  cases text with
  | nil =>
      obtain ⟨fuel, rfl⟩ := Nat.exists_eq_add_one_of_ne_zero (Nat.ne_of_gt enough)
      rw [List.length_nil] at last
      rw [trimRight, if_neg (by omega), last]
      rfl
  | cons first text =>
      rw [List.length_cons] at last enough
      obtain rfl : stop = (front.length + text.length : Nat) := by omega
      have kept := rdropWhile_cons_of_neg text (p := (· ∈ cString cset)) (by simpa using stays first rfl)
      rw [trimRight_eq unbroken (Nat.lt_of_succ_lt enough), kept, List.length_cons]
      push_cast
      congr 1
      omega

/-- On the bytes of a text and its NUL, the function leaves what it computes from the text. -/
theorem ljmStrtrim_refines {text : Bytes} (cset : Bytes) (unbroken : (0 : UInt8) ∉ text) :
    ∃ after, ljmStrtrim (text ++ [0]) cset 0 = some after ∧
      after.string 0 = some (ValkeyLuajit.ljmStrtrim text (cString cset)) := by
  let front := text.takeWhile (· ∈ cString cset)
  let rest := text.dropWhile (· ∈ cString cset)
  let kept := rest.rdropWhile (· ∈ cString cset)
  obtain ⟨back, whole⟩ : ∃ back, kept ++ back = rest := List.rdropWhile_prefix _ _
  have split : front ++ rest = text := List.takeWhile_append_dropWhile
  have block : text ++ [0] = front ++ (rest ++ [0]) := by rw [← List.append_assoc, split]
  have restUnbroken : (0 : UInt8) ∉ rest := fun null =>
    unbroken (split ▸ List.mem_append_right _ null)
  have holds : Block.Holds (text ++ [0]) 0 text := ⟨unbroken, [], rfl⟩
  have length : Block.strlen (text ++ [0]) 0 = some text.length := holds.strlen_eq
  have left : trimLeft (text ++ [0]) cset (0 + text.length - 1) (text.length + 1) 0 =
      some (front.length : Int) := by
    have run := @trimLeft_eq cset [] text [0] (0 + text.length - 1) (text.length + 1) unbroken rfl
      (Nat.lt_succ_self _)
    rwa [List.length_nil, Nat.zero_add] at run
  have stop : (0 : Int) + text.length - 1 = front.length + rest.length - 1 := by
    rw [← split, List.length_append]
    omega
  have right : trimRight (text ++ [0]) cset front.length (text.length + 1)
      (0 + text.length - 1) =
        some ((front.length : Int) + kept.length - 1) := by
    rw [block]
    refine trimRight_stops restUnbroken ?_ stop ?_
    · intro char isHead
      have unlike := List.head?_dropWhile_not (· ∈ cString cset) text
      rw [show text.dropWhile (· ∈ cString cset) = rest from rfl, isHead] at unlike
      simpa using unlike
    · rw [← split, List.length_append]
      omega
  have len : (front.length : Int) + kept.length - 1 - front.length + 1 = kept.length := by omega
  obtain ⟨result, stored, string⟩ := @moved_string front kept (back ++ [0])
    (fun null => restUnbroken (whole ▸ List.mem_append_left _ null)) (by simp)
  refine ⟨result, ?_, by rw [string, ljmStrtrim_eq]; rfl⟩
  rw [← moved_eq] at stored
  simp only [ljmStrtrim, length, left, right, len, Option.bind_eq_bind, Option.bind_some,
    Int.natCast_nonneg, if_true, Int.toNat_natCast]
  rw [block, ← whole, List.append_assoc]
  exact stored

/-- `ljm_strtrim` leaves the text without the characters of the set at its ends, and
accesses only the bytes of the text and its NUL. -/
theorem ljmStrtrim_trims {text : Bytes} (cset : Bytes) (unbroken : (0 : UInt8) ∉ text) :
    ∃ after, ljmStrtrim (text ++ [0]) cset 0 = some after ∧
      after.string 0 = some (trim (· ∈ cString cset) text) := by
  obtain ⟨after, run, string⟩ := ljmStrtrim_refines cset unbroken
  exact ⟨after, run, by rw [string, ljmStrtrim_eq]⟩

/-- A text of nothing but line ends is left empty. -/
theorem line_ends_trimmed : ∃ after,
    ljmStrtrim (bytes "\r\n" ++ [0]) (bytes "\r\n") 0 = some after ∧ after.string 0 = some [] :=
  ljmStrtrim_trims (bytes "\r\n") (by decide)

section Lines

/-- What `ValkeyModule_Alloc` hands out holds whatever it held before. -/
def allocate (fresh : Nat → UInt8) (size : Nat) : Block := (List.range size).map fresh

/-- `copy_string_from_lua_stack` of a string. -/
def copyStringFromLuaStack (fresh : Nat → UInt8) (str : Bytes) : Option Block :=
  if str.length = 0 then (allocate fresh 1).store 0 0
  else do
    let res ← (allocate fresh (str.length + 1)).storeRange 0 str
    res.store str.length 0

/-- The inner loop of `strmapchars`, over the characters from the `i`-th on. -/
def mapChar (block source target : Block) (j : Int) : Nat → Nat → Option Block
  | 0, _ => some block
  | rounds + 1, i => do
      let char ← block.load j
      let other ← source.load i
      if char = other then do
        let char ← target.load i
        block.store j char
      else mapChar block source target j rounds (i + 1)

/-- The outer loop of `strmapchars`. -/
def mapLoop (source target : Block) (setlen : Nat) : Nat → Nat → Block → Option Block
  | 0, _, block => some block
  | rounds + 1, j, block => do
      let block ← mapChar block source target j setlen 0
      mapLoop source target setlen rounds (j + 1) block

/-- `strmapchars`. -/
def strmapchars (block source target : Block) (setlen : Nat) : Option Block := do
  let l ← block.strlen 0
  mapLoop source target setlen l 0 block

/-- The copy of a field with its line ends blanked. -/
def blankedCopy (fresh : Nat → UInt8) (field : Bytes) : Option Block := do
  let copy ← copyStringFromLuaStack fresh field
  strmapchars copy (bytes "\r\n" ++ [0]) (bytes "  " ++ [0]) 2

/-- What `ValkeyModule_ReplyWithSimpleString` sends. -/
def statusLine (fresh : Nat → UInt8) (field : Bytes) : Option Bytes := do
  let ok ← blankedCopy fresh field
  ok.string 0

/-- What `ValkeyModule_ReplyWithBigNumber` sends. -/
def bigNumberLine (fresh : Nat → UInt8) (field : Bytes) : Option Bytes := do
  let bigNum ← blankedCopy fresh field
  let length ← bigNum.strlen 0
  bigNum.loadRange 0 length

/-- The copy is the field and a NUL. -/
theorem copyStringFromLuaStack_eq (fresh : Nat → UInt8) (str : Bytes) :
    copyStringFromLuaStack fresh str = some (str ++ [0]) := by
  rw [copyStringFromLuaStack]
  split
  · rename_i empty
    obtain rfl := List.length_eq_zero_iff.mp empty
    exact Block.store_append [] [] (fresh 0) 0
  · obtain ⟨last, parts⟩ : ∃ last, allocate fresh (str.length + 1) =
        allocate fresh str.length ++ [last] := by
      refine ⟨fresh str.length, ?_⟩
      rw [allocate, List.range_succ, List.map_append]
      rfl
    have same : (allocate fresh str.length).length = str.length := by simp [allocate]
    have stored := Block.storeRange_append [] str [last] same
    rw [parts]
    simp only [List.nil_append, List.length_nil, Int.natCast_zero] at stored
    rw [stored]
    exact Block.store_append str [] last 0

/-- A character that is found in the set gives way to its counterpart. -/
theorem mapChar_eq {sourceFront targetFront source target front back : Bytes} {char : UInt8}
    (fronts : sourceFront.length = targetFront.length) (same : source.length = target.length) :
    mapChar (front ++ char :: back) (sourceFront ++ (source ++ [0])) (targetFront ++ (target ++ [0]))
        front.length source.length sourceFront.length =
      some (front ++ ((source.zip target).lookup char).getD char :: back) := by
  induction source generalizing sourceFront targetFront target with
  | nil => rfl
  | cons other source inductionHypothesis =>
      obtain ⟨counterpart, target, rfl⟩ := List.exists_cons_of_length_eq_add_one same.symm
      have next := @inductionHypothesis (sourceFront ++ [other]) (targetFront ++ [counterpart]) target
        (by simp [fronts]) (Nat.succ_injective same)
      rw [List.append_assoc, List.append_assoc, List.length_append] at next
      rw [List.length_cons, mapChar, Block.load_append, List.cons_append, Block.load_append,
        Option.bind_eq_bind, Option.bind_some, Option.bind_some, List.zip_cons_cons,
        List.lookup_cons]
      by_cases here : char = other
      · rw [if_pos here, fronts, List.cons_append, Block.load_append, Option.bind_some,
          Block.store_append]
        simp [here]
      · rw [if_neg here]
        have apart : (char == other) = false := by simpa using here
        rw [apart]
        exact next

/-- The characters of a text give way one after the other; what stands around them stays. -/
theorem mapLoop_eq {source target front text back : Bytes} (same : source.length = target.length) :
    mapLoop (source ++ [0]) (target ++ [0]) source.length text.length front.length
        (front ++ (text ++ back)) =
      some (front ++ (ValkeyLuajit.strmapchars text source target ++ back)) := by
  induction text generalizing front with
  | nil => rfl
  | cons char text inductionHypothesis =>
      have mapped := @mapChar_eq [] [] source target front (text ++ back) char rfl same
      have next := @inductionHypothesis (front ++ [((source.zip target).lookup char).getD char])
      rw [List.append_assoc, List.append_assoc, List.length_append] at next
      rw [List.cons_append, List.length_cons, mapLoop]
      exact (congrArg (Option.bind · _) mapped).trans next

/-- In a block with a NUL at its end, `strmapchars` changes the string and nothing behind it. -/
theorem strmapchars_eq {source target : Bytes} (text : Bytes) (same : source.length = target.length) :
    ∃ after, strmapchars (text ++ [0]) (source ++ [0]) (target ++ [0]) source.length = some after ∧
      ∃ back, after = ValkeyLuajit.strmapchars (cString text) source target ++ 0 :: back := by
  have holds := Block.holds_append_zero text
  obtain ⟨-, back, parts⟩ := id holds
  rw [List.drop_zero] at parts
  have run := @mapLoop_eq source target [] (cString text) (0 :: back) same
  refine ⟨_, ?_, back, rfl⟩
  rw [strmapchars, show ((0 : Int) = (0 : Nat)) from rfl, holds.strlen_eq]
  rw [parts]
  exact run

theorem blankedCopy_eq (fresh : Nat → UInt8) (field : Bytes) :
    ∃ back, blankedCopy fresh field = some (lineText field ++ 0 :: back) := by
  obtain ⟨after, run, back, parts⟩ := @strmapchars_eq (bytes "\r\n") (bytes "  ") field rfl
  refine ⟨back, ?_⟩
  rw [blankedCopy, copyStringFromLuaStack_eq, Option.bind_eq_bind, Option.bind_some]
  exact run.trans (congrArg some parts)

/-- Only the field decides what the line says. -/
theorem statusLine_eq (fresh : Nat → UInt8) (field : Bytes) :
    statusLine fresh field = some (lineText field) := by
  obtain ⟨back, copied⟩ := blankedCopy_eq fresh field
  have holds : Block.Holds (lineText field ++ 0 :: back) 0 (lineText field) :=
    ⟨fun null => (mem_lineText null).2.2 rfl, back, rfl⟩
  rw [statusLine, copied]
  exact holds.string_eq

theorem bigNumberLine_eq (fresh : Nat → UInt8) (field : Bytes) :
    bigNumberLine fresh field = some (lineText field) := by
  obtain ⟨back, copied⟩ := blankedCopy_eq fresh field
  have holds : Block.Holds (lineText field ++ 0 :: back) 0 (lineText field) :=
    ⟨fun null => (mem_lineText null).2.2 rfl, back, rfl⟩
  have length : Block.strlen (lineText field ++ 0 :: back) 0 = some (lineText field).length :=
    holds.strlen_eq
  have read := Block.loadRange_append [] (lineText field) (0 :: back)
  rw [bigNumberLine, copied]
  simp only [Option.bind_eq_bind, Option.bind_some, length]
  exact read

end Lines

end InPlace

end ValkeyLuajit
